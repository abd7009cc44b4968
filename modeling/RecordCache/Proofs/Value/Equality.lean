import RecordCache.Proofs.Json.Equality
import RecordCache.Value

/-!
# The equality of values

Values that were read from documents are interchangeable when they are equal: nothing equals, exceeds
or falls short of the one and not of the other. As elements of a set they are, when they count as one
element.
-/

namespace RecordCache

namespace Number

theorem same_iff (a b : Number) : a.same b = true ↔ ∃ x, a.measure? = some x ∧ b.measure? = some x := by
  unfold same
  cases a.measure? with
  | none => simp
  | some x =>
    cases b.measure? with
    | none => simp
    | some y =>
      rw [beq_iff_eq]
      exact ⟨fun h => ⟨y, congrArg some h, rfl⟩, fun ⟨z, hx, hy⟩ => Option.some.inj (hx.trans hy.symm)⟩

theorem less_congr {a b : Number} (h : a.same b = true) (c : Number) :
    a.less c = b.less c ∧ c.less a = c.less b := by
  obtain ⟨x, ha, hb⟩ := (same_iff a b).mp h
  simp [less, ha, hb]

end Number

namespace Scalar

theorem same_symm {a b : Scalar} (h : a.same b = true) : b.same a = true := by
  cases a <;> cases b <;> simp_all [same, Number.same_comm]

theorem same_trans {a b c : Scalar} (hab : a.same b = true) (hbc : b.same c = true) : a.same c = true := by
  cases a <;> cases b <;> simp_all [same]
  all_goals cases c <;> simp_all
  exact Number.same_trans hab hbc

theorem less_congr {a b : Scalar} (h : a.same b = true) (c : Scalar) :
    a.less c = b.less c ∧ c.less a = c.less b := by
  cases a <;> cases b <;> simp_all [same]
  next m n => cases c <;> simp [less, Number.less_congr h]

end Scalar

namespace Value

/-- Made of documents, as what is read from a document is. -/
def hasDocuments : Value → Bool
  | .file name url => name.isDocument && url.isDocument
  | .pointer p => p.className.isDocument && p.objectId.isDocument
  | .geoPoint latitude longitude => latitude.isDocument && longitude.isDocument
  | .acl _ => false
  | .raw j => j.isDocument
  | _ => true

theorem same_symm {a b : Value} (ha : a.hasDocuments = true) (h : a.same b = true) : b.same a = true := by
  cases a <;> cases b <;> simp_all [same, hasDocuments, Ref.same]
  case scalar => exact Scalar.same_symm h
  case file => exact ⟨Json.alike_symm ha.1 h.1, Json.alike_symm ha.2 h.2⟩
  case pointer => exact ⟨Json.same_symm ha.1 h.1, Json.same_symm ha.2 h.2⟩
  case geoPoint => exact ⟨Json.alike_symm ha.1 h.1, Json.alike_symm ha.2 h.2⟩
  case raw => exact Json.same_symm ha h

theorem same_trans {a b c : Value} (hb : b.hasDocuments = true) (hab : a.same b = true)
    (hbc : b.same c = true) : a.same c = true := by
  cases a <;> cases b <;> simp_all [same, hasDocuments, Ref.same]
  all_goals cases c <;> simp_all
  case scalar => exact Scalar.same_trans hab hbc
  case file => exact ⟨Json.alike_trans hb.1 hab.1 hbc.1, Json.alike_trans hb.2 hab.2 hbc.2⟩
  case pointer => exact ⟨Json.same_trans hb.1 hab.1 hbc.1, Json.same_trans hb.2 hab.2 hbc.2⟩
  case geoPoint => exact ⟨Json.alike_trans hb.1 hab.1 hbc.1, Json.alike_trans hb.2 hab.2 hbc.2⟩
  case raw => exact Json.same_trans hb hab hbc

theorem same_congr {a b : Value} (ha : a.hasDocuments = true) (hb : b.hasDocuments = true)
    (h : a.same b = true) (c : Value) : c.same a = c.same b := by
  rw [Bool.eq_iff_iff]
  exact ⟨fun hc => same_trans ha hc h, fun hc => same_trans hb hc (same_symm ha h)⟩

theorem same_file_json {name name' url url' : Json} (hName : name.alike name' = true)
    (hUrl : url.alike url' = true) : (file name url).json.same (file name' url').json = true := by
  rw [Json.alike] at hName
  -- a file without a url has one field less
  by_cases hNull : url = .null
  · subst hNull
    obtain rfl := Json.eq_null_of_alike hUrl
    simp [json, Json.same, Json.sameFields, Assoc.get?_cons, Json.sameScalar, hName]
  · have hNull' : url' ≠ .null := by
      rintro rfl
      rw [Json.alike, Json.same_of_isScalar_right rfl, Json.sameScalar_comm,
        ← Json.same_of_isScalar_left rfl, Json.bothNaN, Bool.and_comm] at hUrl
      exact hNull (Json.eq_null_of_alike hUrl)
    rw [Json.alike] at hUrl
    simp [json, Json.same, Json.sameFields, Assoc.get?_cons, Json.sameScalar, hName, hUrl]

theorem same_json {a b : Value} (h : a.same b = true) : a.json.same b.json = true := by
  cases a <;> cases b <;> simp only [same, Bool.false_eq_true, Bool.and_eq_true, beq_iff_eq] at h
  case scalar x y =>
    cases x <;> cases y <;>
      simp_all [Scalar.same, json, Scalar.json, Json.same, Json.sameScalar, Json.numeric?]
    case bool b => cases b <;> exact (Number.same_iff _ _).mpr ⟨_, rfl, rfl⟩
  case date =>
    subst h
    simp [json, Json.same, Json.sameFields, Assoc.get?_cons, Json.sameScalar]
  case bytes =>
    subst h
    simp [json, Json.same, Json.sameFields, Assoc.get?_cons, Json.sameScalar]
  case file => exact same_file_json h.1 h.2
  case pointer =>
    simp only [Ref.same, Bool.and_eq_true] at h
    simp [json, Ref.json, Json.same, Json.sameFields, Assoc.get?_cons, Json.sameScalar, h]
  case geoPoint =>
    simp only [Json.alike] at h
    simp [json, Json.same, Json.sameFields, Assoc.get?_cons, Json.sameScalar, h]
  case acl => exact h
  case raw => exact h

theorem less_congr {a b : Value} (h : a.same b = true) (c : Value) :
    a.less c = b.less c ∧ c.less a = c.less b := by
  cases a <;> cases b <;> simp_all [same]
  case scalar => cases c <;> simp [less, Scalar.less_congr h]
  all_goals cases c <;> simp [less]

theorem keyedByContent_of_same {a b : Value} (h : a.same b = true) :
    a.keyedByContent = b.keyedByContent := by
  cases a <;> cases b <;> simp_all [same, keyedByContent]

/-- One element of a set is the same elements as another one that counts as it. -/
theorem sameKey_congr {a b : Value} (ha : a.hasDocuments = true) (hb : b.hasDocuments = true)
    (h : a.sameKey b = true) (c : Value) : c.sameKey a = c.sameKey b := by
  simp only [sameKey, Bool.and_eq_true, Bool.or_eq_true, beq_iff_eq] at h
  obtain ⟨hSame, hShown⟩ := h
  rw [sameKey, sameKey, same_congr ha hb hSame c]
  cases hc : c.same b
  · rfl
  · have hKind := keyedByContent_of_same hSame
    have hKind' := keyedByContent_of_same hc
    rcases hShown with hKeyed | hShown
    · rw [hKind', ← hKind, hKeyed]
      rfl
    · rw [hShown]

end Value

end RecordCache
