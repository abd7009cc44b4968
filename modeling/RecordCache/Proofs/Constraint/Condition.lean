import RecordCache.Proofs.Constraint.Interchange

/-!
# Conditions on fields

A condition on a field goes into the object of its key, operator by operator, and every operator is read
as the condition again. `Constraint.IsCondition` tells these from disjunctions.
-/

namespace RecordCache

namespace Constraint

/-- A condition on a field. -/
inductive IsCondition : Constraint → Prop
  | equalTo {key : String} {value : Value} (hKey : Where.isFieldKey key = true) (hValue : value.ReadsBack)
      (hPlain : Where.isOperators value.json = false) : IsCondition (.equalTo key value)
  | greaterThan {key : String} {value : Value} (hKey : Where.isFieldKey key = true)
    (hValue : value.ReadsBack) :
    IsCondition (.greaterThan key value)
  | lessThan {key : String} {value : Value} (hKey : Where.isFieldKey key = true)
    (hValue : value.ReadsBack) :
    IsCondition (.lessThan key value)
  | present {key : String} {expected : Bool} (hKey : Where.isFieldKey key = true) :
    IsCondition (.present key expected)
  | matching {key : String} {p : Pattern} (hKey : Where.isFieldKey key = true) (hPattern : p.FromText) :
    IsCondition (.matching key p)
  | oneOf {key : String} {values : List Value} (hKey : Where.isFieldKey key = true)
      (hValues : ∀ v ∈ values, v.ReadsBack) : IsCondition (.oneOf key values)
  | noneOf {key : String} {values : List Value} (hKey : Where.isFieldKey key = true)
      (hValues : ∀ v ∈ values, v.ReadsBack) : IsCondition (.noneOf key values)

/-- The operator that finds the condition; options are found with their pattern. -/
def family (op : String) : String := if op = "$options" then "$regex" else op

namespace IsCondition

variable {c c' : Constraint}

theorem isFieldKey (h : c.IsCondition) : Where.isFieldKey c.slot.1 = true := by
  cases h <;> assumption

theorem kept_eq (h : c.IsCondition) : kept c = c := by
  cases h <;> rfl

theorem fits_eq (h : c.IsCondition) (r : Record) : fits r c = isMet r c := by
  cases h <;> rfl

theorem nodup_keys (h : c.IsCondition) : (Assoc.keys c.operation).Nodup := by
  cases h <;> simp [operation, Assoc.keys]

theorem family_eq (h : c.IsCondition) {op : String} {j : Json} (hOp : Assoc.get? c.operation op = some j) :
    family op = c.slot.2 := by
  have hMem := Assoc.mem_of_get? hOp
  cases h <;> simp [operation] at hMem
  case matching =>
    rcases hMem with ⟨rfl, -⟩ | ⟨rfl, -⟩ <;> rfl
  all_goals
    obtain ⟨rfl, -⟩ := hMem
    rfl

theorem startsWith_of_get? (h : c.IsCondition) {op : String} {j : Json}
    (hOp : Assoc.get? c.operation op = some j) :
    op.startsWith "$" = true := by
  have hMem := Assoc.mem_of_get? hOp
  cases h <;> simp [operation] at hMem
  case matching =>
    rcases hMem with ⟨rfl, -⟩ | ⟨rfl, -⟩ <;> decide +kernel
  all_goals
    obtain ⟨rfl, -⟩ := hMem
    decide +kernel

theorem get?_slot (h : c.IsCondition) :
    ∃ j, Assoc.get? c.operation c.slot.2 = some j ∧ c.slot.2 ≠ "$options" := by
  cases h <;> exact ⟨_, rfl, by simp [slot]⟩

theorem slot_ne (h : c.IsCondition) : c.slot ≠ ("", "$or") := by
  cases h <;> simp [slot]

theorem isSome_get?_congr (h : c.IsCondition) (h' : c'.IsCondition) (hSlot : c.slot = c'.slot)
    (op : String) :
    (Assoc.get? c.operation op).isSome = (Assoc.get? c'.operation op).isSome := by
  cases h <;> cases h' <;>
    simp [slot] at hSlot <;> simp only [operation, Assoc.get?_cons, apply_ite Option.isSome] <;> rfl

end IsCondition

theorem operation_of_slot {c : Constraint} (h : c.slot = ("", "$or")) : c.operation = [] := by
  cases c <;> first | rfl | simp [slot] at h

/-! ### Operators read as the condition -/

theorem mapM_decode_json {values : List Value} (h : ∀ v ∈ values, v.ReadsBack) :
    (values.map Value.json).mapM Value.decode = .ok values := by
  rw [Except.mapM_eq_ok, List.forall₂_map_left_iff, List.forall₂_same]
  exact fun v hv => (h v hv).1.decode_json (h v hv).2

theorem letters_matching (key : String) (p : Pattern) :
    Where.letters (matching key p).operation = p.optionLetters := rfl

/-- An operator of a condition stands for it, next to the letters that come with a pattern. -/
theorem IsCondition.operation?_eq {c : Constraint} (h : c.IsCondition) {op : String} {j : Json}
    (hOp : Assoc.get? c.operation op = some j) (hOptions : op ≠ "$options") {letters : String}
    (hLetters : op = "$regex" → letters = Where.letters c.operation) :
    Where.operation? c.slot.1 letters op j = some c := by
  have hMem := Assoc.mem_of_get? hOp
  cases h with
  | equalTo _ hValue =>
    simp only [operation, List.mem_singleton, Prod.mk.injEq] at hMem
    obtain ⟨rfl, rfl⟩ := hMem
    simp only [Where.operation?, hValue.1.decode_json hValue.2]
    rfl
  | greaterThan _ hValue =>
    simp only [operation, List.mem_singleton, Prod.mk.injEq] at hMem
    obtain ⟨rfl, rfl⟩ := hMem
    simp only [Where.operation?, hValue.1.decode_json hValue.2]
    rfl
  | lessThan _ hValue =>
    simp only [operation, List.mem_singleton, Prod.mk.injEq] at hMem
    obtain ⟨rfl, rfl⟩ := hMem
    simp only [Where.operation?, hValue.1.decode_json hValue.2]
    rfl
  | present =>
    simp only [operation, List.mem_singleton, Prod.mk.injEq] at hMem
    obtain ⟨rfl, rfl⟩ := hMem
    rfl
  | matching _ hPattern =>
    simp only [operation, List.mem_cons, Prod.mk.injEq, List.not_mem_nil, or_false] at hMem
    rcases hMem with ⟨rfl, rfl⟩ | ⟨rfl, -⟩
    · rw [hLetters rfl]
      simp only [Where.operation?, letters_matching, hPattern.compile_again]
      rfl
    · exact absurd rfl hOptions
  | oneOf _ hValues =>
    simp only [operation, List.mem_singleton, Prod.mk.injEq] at hMem
    obtain ⟨rfl, rfl⟩ := hMem
    simp only [Where.operation?, mapM_decode_json hValues]
    rfl
  | noneOf _ hValues =>
    simp only [operation, List.mem_singleton, Prod.mk.injEq] at hMem
    obtain ⟨rfl, rfl⟩ := hMem
    simp only [Where.operation?, mapM_decode_json hValues]
    rfl

theorem operators_object {fields : Fields Json} (hSome : fields ≠ [])
    (hNames : ∀ e ∈ fields, e.1.startsWith "$" = true) : Where.operators (.object fields) = fields := by
  have hIs : Where.isOperators (.object fields) = true := by
    rw [Where.isOperators, List.isEmpty_eq_false_iff.mpr hSome, List.all_eq_true.mpr hNames]
    rfl
  unfold Where.operators
  rw [hIs]

theorem IsCondition.operation_ne_nil {c : Constraint} (h : c.IsCondition) : c.operation ≠ [] := by
  cases h <;> exact List.cons_ne_nil _ _

theorem IsCondition.operators_operation {c : Constraint} (h : c.IsCondition) :
    Where.operators (.object c.operation) = c.operation :=
  operators_object h.operation_ne_nil fun _ he =>
    h.startsWith_of_get? (Assoc.get?_of_mem h.nodup_keys he)

theorem IsCondition.isDocument_operation {c : Constraint} (h : c.IsCondition) :
    (Json.object c.operation).isDocument = true := by
  have hItems {values : List Value} (hValues : ∀ v ∈ values, v.ReadsBack) :
      (Json.array (values.map Value.json)).isDocument = true := by
    rw [Json.isDocument_array]
    intro j hj
    obtain ⟨v, hv, rfl⟩ := List.mem_map.mp hj
    exact (hValues v hv).1.isDocument_json
  rw [Json.isDocument_object]
  refine ⟨h.nodup_keys, fun e he => ?_⟩
  cases h with
  | equalTo _ hValue =>
    rw [List.mem_singleton.mp he]
    exact hValue.1.isDocument_json
  | greaterThan _ hValue =>
    rw [List.mem_singleton.mp he]
    exact hValue.1.isDocument_json
  | lessThan _ hValue =>
    rw [List.mem_singleton.mp he]
    exact hValue.1.isDocument_json
  | present =>
    rw [List.mem_singleton.mp he]
    rfl
  | matching _ hPattern =>
    obtain ⟨text, _, -, hCompile⟩ := hPattern
    have hSource := (Pattern.ofChars_eq_ok.mp hCompile).1
    rcases List.mem_cons.mp he with rfl | hMem
    · rw [hSource]
      rfl
    · rw [List.mem_singleton.mp hMem]
      rfl
  | oneOf _ hValues =>
    rw [List.mem_singleton.mp he]
    exact hItems hValues
  | noneOf _ hValues =>
    rw [List.mem_singleton.mp he]
    exact hItems hValues

theorem IsCondition.conditionHolds_operation {c : Constraint} (h : c.IsCondition) (r : Record) :
    Where.conditionHolds r c.slot.1 (.object c.operation) = isMet r c := by
  rw [Where.conditionHolds, h.operators_operation, Bool.eq_iff_iff, List.all_eq_true]
  have hOperator {op : String} {j : Json} (hOp : Assoc.get? c.operation op = some j)
    (hOptions : op ≠ "$options") :
      Where.operatorHolds r c.slot.1 (Where.letters c.operation) op j = isMet r c := by
    rw [Where.operatorHolds, h.operation?_eq hOp hOptions fun _ => rfl, beq_false_of_ne hOptions]
    rfl
  constructor
  · intro hAll
    obtain ⟨j, hOp, hOptions⟩ := h.get?_slot
    rw [← hOperator hOp hOptions]
    exact hAll _ (Assoc.mem_of_get? hOp)
  · rintro hMet ⟨op, j⟩ hMem
    by_cases hOptions : op = "$options"
    · rw [hOptions]
      rfl
    · exact (hOperator (Assoc.get?_of_mem h.nodup_keys hMem) hOptions).trans hMet

end Constraint

end RecordCache
