import RecordCache.Proofs.Value.Equality
import RecordCache.Value.Order

/-!
# The order of sort keys

Sort keys that have a place, as all but NaN have, are ordered without gaps: where one comes before another,
every third comes after the former or before the latter.
-/

namespace RecordCache

namespace Measure

theorem before_or_before {a c : Measure} (h : a.Before c) (b : Measure) : a.Before b ∨ b.Before c := by
  unfold Before at *
  omega

theorem eq_iff_not_before (a b : Measure) : a = b ↔ ¬ a.Before b ∧ ¬ b.Before a := by
  constructor
  · rintro rfl
    exact ⟨before_irrefl a, before_irrefl a⟩
  · rintro ⟨hab, hba⟩
    exact ((before_or_eq_or_before a b).resolve_left hab).resolve_right hba

end Measure

namespace Number

theorem less_iff {a b : Number} :
    a.less b ↔ ∃ x y, a.measure? = some x ∧ b.measure? = some y ∧ x.Before y := by
  unfold less
  cases a.measure? <;> cases b.measure? <;> simp

theorem less_int (m n : Int) : (Number.int m).less (.int n) = decide (m < n) := by
  have hUnits : 0 < Binary.unitsPerOne := by decide +kernel
  have hLess : (Number.int m).less (.int n) =
      decide (Measure.Before ⟨0, m * Binary.unitsPerOne⟩ ⟨0, n * Binary.unitsPerOne⟩) := rfl
  -- how many units there are does not matter
  generalize Binary.unitsPerOne = units at hUnits hLess
  rw [hLess, decide_eq_decide]
  simp only [Measure.Before, Int.lt_irrefl, false_or, true_and]
  exact Int.mul_lt_mul_right (Int.natCast_pos.mpr hUnits)

end Number

theorem Text.before_or_before {a c : String} (h : a < c) (b : String) : a < b ∨ b < c := by
  by_contra hNeither
  obtain ⟨hab, hbc⟩ := not_or.mp hNeither
  exact String.not_lt.mpr (String.le_trans (String.not_lt.mp hbc) (String.not_lt.mp hab)) h

theorem Text.eq_iff_not_before (a b : String) : a = b ↔ ¬ a < b ∧ ¬ b < a := by
  constructor
  · rintro rfl
    exact ⟨String.lt_irrefl a, String.lt_irrefl a⟩
  · rintro ⟨hab, hba⟩
    exact String.le_antisymm (String.not_lt.mp hba) (String.not_lt.mp hab)

namespace SortKey

variable {a b c : SortKey}

def HasPlace : SortKey → Prop
  | .number x => Binary.notANumber x = false
  | _ => True

theorem before_of_rank (h : a.rank ≠ b.rank) : a.before b = decide (a.rank < b.rank) := by
  cases a <;> cases b <;> first | rfl | exact absurd rfl h

theorem rank_le_of_before (h : a.before b) : a.rank ≤ b.rank := by
  by_contra hRank
  rw [before_of_rank (by omega), decide_eq_true_eq] at h
  omega

theorem before_asymm (h : a.before b) : ¬ b.before a := by
  intro h'
  have hRank := Nat.le_antisymm (rank_le_of_before h) (rank_le_of_before h')
  cases a <;> cases b <;> simp only [rank, reduceCtorEq, Nat.reduceEqDiff] at hRank <;>
    simp only [before, decide_eq_true_eq] at h h'
  case null => exact absurd h (Nat.lt_irrefl _)
  case number x y =>
    obtain ⟨m, n, hm, hn, hBefore⟩ := Number.less_iff.mp h
    obtain ⟨n', m', hn', hm', hAfter⟩ := Number.less_iff.mp h'
    obtain rfl := Option.some.inj (hm.symm.trans hm')
    obtain rfl := Option.some.inj (hn.symm.trans hn')
    exact Measure.before_irrefl _ (Measure.before_trans hBefore hAfter)
  case text => exact String.lt_asymm h h'
  case truth p q => cases p <;> cases q <;> simp_all
  case date => exact Nat.lt_asymm h h'
  case other => exact String.lt_asymm h h'

theorem before_or_before (hPlace : b.HasPlace) (h : a.before c) : a.before b ∨ b.before c := by
  have hEnds := rank_le_of_before h
  by_cases hab : a.rank < b.rank
  · exact .inl (by rw [before_of_rank (Nat.ne_of_lt hab)]; exact decide_eq_true hab)
  by_cases hbc : b.rank < c.rank
  · exact .inr (by rw [before_of_rank (Nat.ne_of_lt hbc)]; exact decide_eq_true hbc)
  -- All three are of one rank.
  have hFirst : a.rank = b.rank := by omega
  have hSecond : b.rank = c.rank := by omega
  cases a <;> cases b <;> simp only [rank, reduceCtorEq, Nat.reduceEqDiff] at hFirst <;>
    cases c <;> simp only [rank, reduceCtorEq, Nat.reduceEqDiff] at hSecond <;>
    simp only [before, decide_eq_true_eq] at h ⊢
  case null => exact absurd h (Nat.lt_irrefl _)
  case number x y z =>
    obtain ⟨m, n, hm, hn, hBefore⟩ := Number.less_iff.mp h
    obtain ⟨middle, hMiddle⟩ := Number.exists_measure hPlace
    rcases Measure.before_or_before hBefore middle with hLow | hHigh
    · exact .inl (Number.less_iff.mpr ⟨_, _, hm, hMiddle, hLow⟩)
    · exact .inr (Number.less_iff.mpr ⟨_, _, hMiddle, hn, hHigh⟩)
  case text => exact Text.before_or_before h _
  case truth p q r => cases p <;> cases q <;> cases r <;> simp_all
  case date => omega
  case other => exact Text.before_or_before h _

/-- Keys with a place are the same where neither comes before the other. -/
theorem same_iff (ha : a.HasPlace) (hb : b.HasPlace) : a.same b ↔ ¬ a.before b ∧ ¬ b.before a := by
  by_cases hRank : a.rank = b.rank
  · cases a <;> cases b <;> simp only [rank, reduceCtorEq, Nat.reduceEqDiff] at hRank <;>
      simp only [same, before, decide_eq_true_eq, beq_iff_eq]
    case null => simp [rank]
    case number x y =>
      obtain ⟨m, hm⟩ := Number.exists_measure ha
      obtain ⟨n, hn⟩ := Number.exists_measure hb
      have hAlike : (Json.float x).alike (.float y) = (Number.float x).same (.float y) := by
        change ((Binary.notANumber x && _) || (Json.float x).same _) = _
        rw [show Binary.notANumber x = false from ha, Json.same_of_isScalar_left rfl]
        rfl
      simp only [hAlike, Number.same, Number.less, hm, hn, beq_iff_eq, decide_eq_true_eq]
      exact Measure.eq_iff_not_before m n
    case text => exact Text.eq_iff_not_before _ _
    case truth p q => cases p <;> cases q <;> simp
    case date d e =>
      cases d
      cases e
      simp only [Date.mk.injEq]
      omega
    case other => exact Text.eq_iff_not_before _ _
  · have hSame : a.same b = false := by
      cases a <;> cases b <;> first | rfl | exact absurd rfl hRank
    simp only [hSame, before_of_rank hRank, before_of_rank (Ne.symm hRank), decide_eq_true_eq, Bool.false_eq_true,
      false_iff]
    omega

end SortKey

end RecordCache
