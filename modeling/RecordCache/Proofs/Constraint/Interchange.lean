import RecordCache.Proofs.Constraint.Kept
import RecordCache.Proofs.Pattern.Recompile
import RecordCache.Proofs.Value.Codec

/-!
# Constraints with the same meaning

`Constraint.Expressible` tells the constraints that records can be matched against and that have a form in
a `where` object. Those with the same meaning are met by the same records, so that a typed set says what is
kept of it.
-/

namespace RecordCache

namespace Value

/-- Read from a document, and read back from its wire form. -/
def ReadsBack (v : Value) : Prop := v.FromDocument ∧ v.hasFullYear = true

theorem readsBack_scalar (s : Scalar) : (Value.scalar s).ReadsBack :=
  ⟨⟨s.json, by cases s <;> rfl, decode_scalar_json s⟩, rfl⟩

theorem isKey_congr {a b : Value} (h : a.sameKey b = true) : a.isKey = b.isKey := by
  have hSame : a.same b = true := (Bool.and_eq_true_iff.mp h).1
  cases a <;> cases b <;> simp_all [same, isKey, Ref.same, Ref.isAtomic]
  next p q =>
    have isScalar_congr {x y : Json} (hxy : x.same y = true) : x.isScalar = y.isScalar := by
      rw [Bool.eq_iff_iff]
      constructor
      · intro hx
        rw [Json.same_of_isScalar_left hx] at hxy
        exact (Json.sameScalar_isScalar hxy).2
      · intro hy
        rw [Json.same_of_isScalar_right hy] at hxy
        exact (Json.sameScalar_isScalar hxy).1
    rw [isScalar_congr hSame.1, isScalar_congr hSame.2]

end Value

namespace Constraint

mutual

/-- Conditions on fields, with arguments that read back, and disjunctions of them. A value that looks like
operators is no argument of equality. -/
def Expressible : Constraint → Prop
  | .equalTo key value own =>
    own = none ∧ Where.isFieldKey key = true ∧ value.ReadsBack ∧ Where.isOperators value.json = false
  | .greaterThan key value => Where.isFieldKey key = true ∧ value.ReadsBack
  | .lessThan key value => Where.isFieldKey key = true ∧ value.ReadsBack
  | .present key _ => Where.isFieldKey key = true
  | .matching key p => Where.isFieldKey key = true ∧ p.FromText
  | .oneOf key values => Where.isFieldKey key = true ∧ ∀ v ∈ values, v.ReadsBack
  | .noneOf key values => Where.isFieldKey key = true ∧ ∀ v ∈ values, v.ReadsBack
  | .either left right => SetExpressible left ∧ SetExpressible right
  | .relatedTo _ _ => False
  | .selected _ _ _ => False
  | .notSelected _ _ _ => False

def SetExpressible : Conjunction Constraint → Prop
  | ⟨_, constraints⟩ => AllExpressible constraints

def AllExpressible : List Constraint → Prop
  | [] => True
  | c :: rest => Expressible c ∧ AllExpressible rest

end

/-! ### The same meaning -/

theorem anyCandidate_congr (r : Record) (key : String) {test test' : Value → Bool}
    (h : ∀ v, test v = test' v) :
    anyCandidate r key test = anyCandidate r key test' := by
  rw [funext h]

theorem any_sameKey_congr {vs vs' : List Value}
    (hvs : ∀ v ∈ vs, v.ReadsBack) (hvs' : ∀ v ∈ vs', v.ReadsBack)
    (h : sameElements vs vs' = true) (candidate : Value) :
    (vs.any fun v => candidate.sameKey v) = vs'.any fun v => candidate.sameKey v := by
  fun_induction sameElements vs vs' with
  | case1 => rfl
  | case2 v vs v' vs' ih =>
    rw [Bool.and_eq_true] at h
    obtain ⟨hv, hRest⟩ := List.forall_mem_cons.mp hvs
    obtain ⟨hv', hRest'⟩ := List.forall_mem_cons.mp hvs'
    rw [List.any_cons, List.any_cons, ih hRest hRest' h.2,
      Value.sameKey_congr hv.1.hasDocuments hv'.1.hasDocuments h.1]
  | case3 => cases h

theorem any_isKey_congr {vs vs' : List Value} (h : sameElements vs vs' = true) :
    (vs.any fun v => !v.isKey) = vs'.any fun v => !v.isKey := by
  fun_induction sameElements vs vs' with
  | case1 => rfl
  | case2 v vs v' vs' ih =>
    rw [Bool.and_eq_true] at h
    rw [List.any_cons, List.any_cons, ih h.2, Value.isKey_congr h.1]
  | case3 => cases h

theorem anyInSet_congr {vs vs' : List Value} (h : ∀ candidate, inSet vs candidate = inSet vs' candidate)
    (candidates : List Value) : anyInSet vs candidates = anyInSet vs' candidates := by
  induction candidates with
  | nil => rfl
  | cons c rest ih => rw [anyInSet, anyInSet, h, ih]

theorem containsField_congr (r : Record) (key : String) {vs vs' : List Value} (hvs : ∀ v ∈ vs, v.ReadsBack)
    (hvs' : ∀ v ∈ vs', v.ReadsBack) (h : sameElements vs vs' = true) :
    containsField r key vs = containsField r key vs' := by
  have hInSet (candidate : Value) : inSet vs candidate = inSet vs' candidate := by
    simp only [inSet, any_sameKey_congr hvs hvs' h]
  have hAny := anyInSet_congr hInSet
  simp only [containsField, any_isKey_congr h, hAny]

theorem eq_of_same_pattern {p p' : Pattern} (hp : p.FromText) (hp' : p'.FromText)
    (h : p.same p' = true) : p = p' := by
  rw [Pattern.same, Bool.and_eq_true, beq_iff_eq] at h
  have hText := hp.compile_again
  have hText' := hp'.compile_again
  have hSource : p.source = p'.source := by
    obtain ⟨text, _, -, hCompile⟩ := hp
    obtain ⟨text', _, -, hCompile'⟩ := hp'
    rw [(Pattern.ofChars_eq_ok.mp hCompile).1, (Pattern.ofChars_eq_ok.mp hCompile').1] at h ⊢
    simpa [Json.same, Json.sameScalar] using h.1
  rw [hSource, h.2, hText'] at hText
  exact (Except.ok.inj hText).symm

theorem isMet_congr (r : Record) {c c' : Constraint} (hc : Expressible c) (hc' : Expressible c')
    (h : c.sameMeaning c' = true) : isMet r c = isMet r c' := by
  have hHolds : holds r c = holds r c' := by
    cases c <;> cases c' <;> simp only [sameMeaning, Bool.and_eq_true, beq_iff_eq, Bool.false_eq_true] at h
    case equalTo =>
      obtain ⟨rfl, hSame⟩ := h
      obtain ⟨-, -, ⟨hv, -⟩, -⟩ := hc
      obtain ⟨-, -, ⟨hv', -⟩, -⟩ := hc'
      exact anyCandidate_congr r _ (Value.same_congr hv.hasDocuments hv'.hasDocuments hSame)
    case greaterThan =>
      obtain ⟨rfl, hSame⟩ := h
      exact anyCandidate_congr r _ fun v => (Value.less_congr hSame v).1
    case lessThan =>
      obtain ⟨rfl, hSame⟩ := h
      exact anyCandidate_congr r _ fun v => (Value.less_congr hSame v).2
    case present =>
      obtain ⟨rfl, rfl⟩ := h
      rfl
    case matching =>
      obtain ⟨rfl, hSame⟩ := h
      rw [eq_of_same_pattern hc.2 hc'.2 hSame]
    case oneOf =>
      obtain ⟨rfl, hSame⟩ := h
      exact containsField_congr r _ hc.2 hc'.2 hSame
    case noneOf =>
      obtain ⟨rfl, hSame⟩ := h
      exact congrArg (Except.map (!·)) (containsField_congr r _ hc.2 hc'.2 hSame)
  rw [isMet, isMet, hHolds]

/-! ### Typed sets -/

@[simp] theorem slot_kept (c : Constraint) : (kept c).slot = c.slot := by
  cases c <;> rfl

@[simp] theorem operation_kept (c : Constraint) : (kept c).operation = c.operation := by
  cases c <;> rfl

@[simp] theorem restatedBy_kept (old new : Constraint) :
    (kept old).restatedBy (kept new) = old.restatedBy new := by
  rw [restatedBy, restatedBy, operation_kept, operation_kept]

/-- Only conditions on fields have the same meaning; nothing in them can be replaced. -/
theorem kept_of_sameMeaning {c c' : Constraint} (h : c.sameMeaning c' = true) (r : Record) :
    fits r (kept c) = isMet r c ∧ fits r (kept c') = isMet r c' := by
  cases c <;> cases c' <;> first | exact ⟨rfl, rfl⟩ | cases h

/-- When the later one of two constraints took the place of the earlier one, it says no less. -/
def Agree (r : Record) (c later : Constraint) : Prop :=
  c.slot = later.slot → c.restatedBy later = true → fits r later = true → fits r c = true

theorem fits_of_arranged {r : Record} {constraints : List Constraint} (h : constraints.Pairwise (Agree r))
    (hAll : ∀ c ∈ (arrange constraints).all, fits r c = true) : ∀ c ∈ constraints, fits r c = true := by
  -- from the end: only the last constraint can have taken the place of one that was arranged before
  induction constraints using List.reverseRec with
  | nil => exact nofun
  | append_singleton rest last ih =>
    obtain ⟨hRest, -, hPairs⟩ := List.pairwise_append.mp h
    rw [arrange_append] at hAll
    obtain ⟨hLast, hStays⟩ := Arranged.mem_add (valid_arrange rest) last
    have hLastFits := hAll last hLast
    have hBefore : ∀ c ∈ (arrange rest).all, fits r c = true := by
      intro c hc
      rcases hStays c hc with hThere | ⟨hTop, hRestated⟩
      · exact hAll c hThere
      · have hSlot := (valid_arrange rest).slot_eq hTop
        exact hPairs c (mem_of_mem_arrange hc) last List.mem_cons_self hSlot hRestated hLastFits
    intro c hc
    rcases List.mem_append.mp hc with hMem | hMem
    · exact ih hRest hBefore c hMem
    · rw [List.mem_singleton.mp hMem]
      exact hLastFits

theorem mem_expressible {constraints : List Constraint} (h : AllExpressible constraints) :
    ∀ c ∈ constraints, Expressible c := by
  induction constraints with
  | nil => exact nofun
  | cons c rest ih => exact List.forall_mem_cons.mpr ⟨h.1, ih h.2⟩

theorem exists_of_mem_keptAll {constraints : List Constraint} {c : Constraint}
    (h : c ∈ keptAll constraints) :
    ∃ c' ∈ constraints, c = kept c' := by
  induction constraints with
  | nil => cases h
  | cons first rest ih =>
    rcases List.mem_cons.mp h with rfl | hMem
    · exact ⟨first, List.mem_cons_self, rfl⟩
    · obtain ⟨c', hc', hEq⟩ := ih hMem
      exact ⟨c', List.mem_cons_of_mem _ hc', hEq⟩

theorem agree_kept {r : Record} {c later : Constraint} (hc : Expressible c) (hLater : Expressible later)
    (h : (!(c.slot == later.slot && c.restatedBy later) || c.sameMeaning later) = true) :
    Agree r (kept c) (kept later) := by
  intro hSlot hRestated hFits
  rw [slot_kept, slot_kept] at hSlot
  rw [restatedBy_kept] at hRestated
  have hMeaning : c.sameMeaning later = true := by
    simpa [hSlot, hRestated] using h
  obtain ⟨hFitsKept, hFitsLater⟩ := kept_of_sameMeaning hMeaning r
  rw [hFitsKept, isMet_congr r hc hLater hMeaning, ← hFitsLater]
  exact hFits

theorem pairwise_agree {r : Record} {constraints : List Constraint}
    (hExpressible : AllExpressible constraints)
    (hTyped : allTyped constraints = true) : (keptAll constraints).Pairwise (Agree r) := by
  induction constraints with
  | nil => exact .nil
  | cons c rest ih =>
    rw [allTyped, Bool.and_eq_true, Bool.and_eq_true] at hTyped
    obtain ⟨⟨-, hPairs⟩, hRest⟩ := hTyped
    refine .cons ?_ (ih hExpressible.2 hRest)
    intro later hMem
    obtain ⟨later, hLater, rfl⟩ := exists_of_mem_keptAll hMem
    exact agree_kept hExpressible.1 (mem_expressible hExpressible.2 later hLater)
      (List.all_eq_true.mp hPairs later hLater)

mutual

theorem fits_kept_of_typed {r : Record} :
    ∀ {c : Constraint}, Expressible c → typed c = true → fits r (kept c) = true → fits r c = true
  | .either left right, hc, hTyped, h => by
    rw [typed, Bool.and_eq_true] at hTyped
    rw [kept, fits, Bool.or_eq_true] at h
    rw [fits, Bool.or_eq_true]
    exact h.imp (setFits_kept_of_typed hc.1 hTyped.1) (setFits_kept_of_typed hc.2 hTyped.2)
  | .equalTo _ _ _, _, _, h => h
  | .greaterThan _ _, _, _, h => h
  | .lessThan _ _, _, _, h => h
  | .present _ _, _, _, h => h
  | .matching _ _, _, _, h => h
  | .oneOf _ _, _, _, h => h
  | .noneOf _ _, _, _, h => h

theorem setFits_kept_of_typed {r : Record} :
    ∀ {s : Conjunction Constraint}, SetExpressible s → setTyped s = true →
      setFits r (keptSet s) = true → setFits r s = true
  | ⟨_, constraints⟩, hs, hTyped, h => by
    rw [keptSet, setFits, allFit_iff] at h
    have hKept := fits_of_arranged (pairwise_agree hs hTyped) h
    rw [setFits]
    exact allFit_kept_of_typed hs hTyped hKept

theorem allFit_kept_of_typed {r : Record} :
    ∀ {constraints : List Constraint}, AllExpressible constraints → allTyped constraints = true →
      (∀ c ∈ keptAll constraints, fits r c = true) → allFit r constraints = true
  | [], _, _, _ => rfl
  | c :: rest, hs, hTyped, h => by
    rw [allTyped, Bool.and_eq_true, Bool.and_eq_true] at hTyped
    rw [keptAll, List.forall_mem_cons] at h
    rw [allFit, fits_kept_of_typed hs.1 hTyped.1.1 h.1, allFit_kept_of_typed hs.2 hTyped.2 h.2]
    rfl

end

end Constraint

end RecordCache
