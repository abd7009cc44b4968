import RecordCache.Constraint.Match
import RecordCache.Constraint.Where
import RecordCache.Proofs.Runs
import RecordCache.Query

/-!
# How constraints fail

Evaluating a constraint fails over data, or because it is none that can be evaluated; composing one fails over
data or over input that has no form on the wire. Neither ever fails over the cache, and so nor does a query that
is composed, or that sorts and cuts what it found.
-/

namespace RecordCache

variable {β γ σ : Type} {P : Error → Prop}

/-- What fails does so in one of these ways. -/
def FailsAs (P : Error → Prop) (r : Except Error β) : Prop := ∀ e, r = .error e → P e

namespace FailsAs

theorem ret (b : β) : FailsAs P (.ok b) := fun _ h => nomatch h

theorem fail {e : Error} (h : P e) : FailsAs P (.error e : Except Error β) := by
  intro other hOther
  cases hOther
  exact h

theorem ofData (hData : ∀ fault, P (.data fault)) (r : Except DataFault β) : FailsAs P (r.mapError Error.data) := by
  cases r with
  | ok b => exact ret b
  | error fault => exact fail (hData fault)

theorem bind {r : Except Error β} {next : β → Except Error γ} (h : FailsAs P r)
    (hNext : ∀ b, FailsAs P (next b)) : FailsAs P (r >>= next) := by
  cases r with
  | ok b => exact hNext b
  | error e => exact fail (h e rfl)

theorem map {r : Except Error β} (f : β → γ) (h : FailsAs P r) : FailsAs P (f <$> r) := by
  rw [map_eq_pure_bind]
  exact h.bind fun b => ret (f b)

theorem filterM {f : β → Except Error Bool} (h : ∀ b, FailsAs P (f b)) (xs : List β) : FailsAs P (xs.filterM f) := by
  have hAux (acc : List β) : FailsAs P (xs.filterAuxM f acc) := by
    induction xs generalizing acc with
    | nil => exact ret acc
    | cons x rest ih =>
      rw [List.filterAuxM]
      exact (h x).bind fun b => ih _
  exact (hAux []).bind fun found => ret found.reverse

end FailsAs

/-- What fails does so over data. -/
abbrev FailsInData (r : Except Error β) : Prop := FailsAs (fun e => ∃ fault, e = .data fault) r

/-- What fails does not do so over the cache. -/
abbrev FailsElsewhere (r : Except Error β) : Prop := FailsAs (fun e => e.isCache = false) r

/-- From a state of this kind, the work leaves one, and does not fail over the cache. -/
def GoesOn (I : σ → Prop) (work : ExceptT Error (StateM σ) β) : Prop :=
  ∀ s r s', I s → Runs work s r s' → I s' ∧ FailsElsewhere r

namespace GoesOn

variable {I : σ → Prop}

theorem of_runs {work : ExceptT Error (StateM σ) β}
    (h : ∀ s, I s → ∃ r s', Runs work s r s' ∧ I s' ∧ FailsElsewhere r) : GoesOn I work := by
  intro s r s' hState hRun
  obtain ⟨known, t, hKnown, hEnd⟩ := h s hState
  obtain ⟨rfl, rfl⟩ := hRun.unique hKnown
  exact hEnd

theorem ret (b : β) : GoesOn I (pure b) := of_runs fun s hState => ⟨_, s, .ret b s, hState, .ret b⟩

theorem fail {e : Error} (h : e.isCache = false) : GoesOn I (throw e : ExceptT Error (StateM σ) β) :=
  of_runs fun s hState => ⟨_, s, .fail e s, hState, .fail h⟩

theorem bind {work : ExceptT Error (StateM σ) β} {next : β → ExceptT Error (StateM σ) γ} (h : GoesOn I work)
    (hNext : ∀ b, GoesOn I (next b)) : GoesOn I (work >>= next) := by
  intro s r s' hState hRun
  obtain ⟨b, t, hFirst, hRest⟩ | ⟨e, rfl, hFirst⟩ := Runs.bind_iff.mp hRun
  · exact hNext b _ _ _ (h _ _ _ hState hFirst).1 hRest
  · obtain ⟨hLeft, hFails⟩ := h _ _ _ hState hFirst
    exact ⟨hLeft, .fail (hFails e rfl)⟩

theorem map {work : ExceptT Error (StateM σ) β} (f : β → γ) (h : GoesOn I work) : GoesOn I (f <$> work) := by
  rw [map_eq_pure_bind]
  exact h.bind fun b => ret (f b)

theorem forM {f : β → ExceptT Error (StateM σ) PUnit} (h : ∀ b, GoesOn I (f b)) (xs : List β) :
    GoesOn I (xs.forM f) := by
  induction xs with
  | nil => exact ret _
  | cons x rest ih => exact (h x).bind fun _ => ih

end GoesOn

namespace FailsInData

theorem ofData (r : Except DataFault β) : FailsInData (r.mapError Error.data) :=
  FailsAs.ofData (fun fault => ⟨fault, rfl⟩) r

end FailsInData

namespace FailsElsewhere

theorem ofData (r : Except DataFault β) : FailsElsewhere (r.mapError Error.data) := FailsAs.ofData (fun _ => rfl) r

end FailsElsewhere

namespace Value

theorem failsElsewhere_ofInstant (t : WallTime) : FailsElsewhere (ofInstant t) := by
  rw [ofInstant]
  cases Date.ofWallTime t with
  | ok d => exact .ret _
  | error fault => exact .fail rfl

theorem failsElsewhere_ofParts (thing : Thing) (parts : List Json) : FailsElsewhere (ofParts thing parts) := by
  rw [ofParts.eq_def]
  split
  case h_2 => exact failsElsewhere_ofInstant _
  case h_10 => exact (FailsElsewhere.ofData _).bind fun acl => .ret _
  case h_11 =>
    refine (FailsElsewhere.ofData _).bind fun record => FailsAs.bind ?_ fun p => .ret _
    rw [Pointer.ofSaved]
    split
    · exact .fail rfl
    · exact FailsElsewhere.ofData _
  all_goals first | exact .ret _ | exact .fail rfl

theorem failsElsewhere_ofArgument (j : Json) : FailsElsewhere (ofArgument j) := by
  rw [ofArgument.eq_def]
  split
  · exact failsElsewhere_ofParts _ _
  · exact FailsElsewhere.ofData _

end Value

namespace Constraint

mutual

/-- Only relations and sub-queries fail in themselves. -/
theorem failsAs_holds (hData : ∀ fault, P (.data fault)) (r : Record) : ∀ {c : Constraint},
    (∀ fault, P (.unmatchable fault)) ∨ allowsLocal c = true ∧ hasSubQueries c = false → FailsAs P (holds r c)
  | .equalTo _ _ _, _ => (FailsAs.ofData hData _).map _
  | .greaterThan _ _, _ => (FailsAs.ofData hData _).map _
  | .lessThan _ _, _ => (FailsAs.ofData hData _).map _
  | .present _ _, _ => .ret _
  | .matching _ _, _ => .ofData hData _
  | .oneOf _ _, _ => .ofData hData _
  | .noneOf _ _, _ => (FailsAs.ofData hData _).map _
  | .either left right, h => by
    rw [allowsLocal, hasSubQueries, Bool.and_eq_true, Bool.or_eq_false_iff] at h
    rw [holds]
    refine (failsAs_setHolds hData r (h.imp_right fun h => ⟨h.1.1, h.2.1⟩)).bind fun b => ?_
    cases b with
    | true => exact .ret true
    | false => exact failsAs_setHolds hData r (h.imp_right fun h => ⟨h.1.2, h.2.2⟩)
  | .relatedTo _ _, h => .fail (h.elim (fun h => h _) fun h => nomatch h.1)
  | .selected _ _ _, h => .fail (h.elim (fun h => h _) fun h => nomatch h.2)
  | .notSelected _ _ _, h => .fail (h.elim (fun h => h _) fun h => nomatch h.2)

theorem failsAs_setHolds (hData : ∀ fault, P (.data fault)) (r : Record) : ∀ {s : Conjunction Constraint},
    (∀ fault, P (.unmatchable fault)) ∨ setAllowsLocal s = true ∧ setHasSubQueries s = false → FailsAs P (setHolds r s)
  | ⟨_, _⟩, h => by
    rw [setHolds]
    exact failsAs_allHold hData r h

theorem failsAs_allHold (hData : ∀ fault, P (.data fault)) (r : Record) : ∀ {constraints : List Constraint},
    (∀ fault, P (.unmatchable fault)) ∨ allAllowLocal constraints = true ∧ anyHasSubQueries constraints = false →
    FailsAs P (allHold r constraints)
  | [], _ => .ret true
  | c :: rest, h => by
    rw [allAllowLocal, anyHasSubQueries, Bool.and_eq_true, Bool.or_eq_false_iff] at h
    rw [allHold]
    refine (failsAs_holds hData r (h.imp_right fun h => ⟨h.1.1, h.2.1⟩)).bind fun b => ?_
    cases b with
    | true => exact failsAs_allHold hData r (h.imp_right fun h => ⟨h.1.2, h.2.2⟩)
    | false => exact .ret false

end

/-! ### Composing -/

theorem failsElsewhere_ownerJson (owner : Json) : FailsElsewhere (ownerJson owner) := by
  have hEncode : FailsElsewhere owner.encode := (Value.failsElsewhere_ofArgument owner).map _
  rw [ownerJson.eq_def]
  split
  all_goals first | exact hEncode | exact .fail rfl

/-- Whatever the lists of clauses, composing does not fail over the cache. -/
abbrev Composes (work : Composing β) : Prop := GoesOn (fun _ => True) work

theorem composes_addClause (w : Where) (clause : Json) : Composes (w.addClause clause) := by
  rw [Where.addClause]
  split
  · exact .ret _
  · exact .ret _
  · exact .bind (.of_runs fun lists _ => ⟨.ok (), _, .alter _ lists, trivial, .ret ()⟩) fun _ => .ret _
  · exact .fail rfl

theorem composes_setCondition (w : Where) (key : String) (condition : Json) :
    Composes (w.setCondition key condition) := by
  rw [Where.setCondition]
  split
  · exact .ret _
  · refine .bind (.of_runs fun lists _ => ⟨_, lists, .state lists, trivial, .ret _⟩) fun lists => ?_
    split
    · exact composes_addClause _ _
    · exact .ret _

mutual

theorem composes_compose : ∀ (c : Constraint) (w : Where), Composes (compose c w)
  | .equalTo key value own, w => by cases own <;> exact composes_setCondition _ _ _
  | .greaterThan _ _, _ => composes_setCondition _ _ _
  | .lessThan _ _, _ => composes_setCondition _ _ _
  | .present _ _, _ => composes_setCondition _ _ _
  | .matching _ _, _ => composes_setCondition _ _ _
  | .oneOf _ _, _ => composes_setCondition _ _ _
  | .noneOf _ _, _ => composes_setCondition _ _ _
  | .either left right, w => by
    rw [compose]
    refine (composes_composeSet left).bind fun leftWhere => (composes_composeSet right).bind fun rightWhere => ?_
    split
    · exact composes_addClause _ _
    · exact .ret _
  | .relatedTo key owner, w => by
    rw [compose]
    split
    · exact .ret _
    · next e hOwner => exact .fail (failsElsewhere_ownerJson owner e hOwner)
  | .selected key matchKey inner, w => by
    rw [compose]
    exact (composes_composeSet inner).bind fun innerWhere => composes_setCondition _ _ _
  | .notSelected key matchKey inner, w => by
    rw [compose]
    exact (composes_composeSet inner).bind fun innerWhere => composes_setCondition _ _ _

theorem composes_composeSet : ∀ s : Conjunction Constraint, Composes (composeSet s)
  | ⟨_, constraints⟩ => by
    rw [composeSet]
    exact composes_composeAll constraints _

theorem composes_composeAll : ∀ (constraints : List Constraint) (w : Where), Composes (composeAll constraints w)
  | [], w => .ret w
  | c :: rest, w => by
    rw [composeAll]
    exact (composes_compose c w).bind fun w => composes_composeAll rest w

end

end Constraint

namespace ConstraintSet

theorem failsElsewhere_filter (s : ConstraintSet) (records : List Record) : FailsElsewhere (s.filter records) :=
  .filterM (fun r => Constraint.failsAs_setHolds (fun _ => rfl) r (.inl fun _ => rfl)) records

theorem failsElsewhere_composeWith (s : ConstraintSet) (lists : ClauseLists) :
    FailsElsewhere (s.composeWith lists).1 := by
  obtain ⟨r, left, hRun⟩ := Runs.exists_run (Constraint.composeSet s) lists
  have hResult := (Constraint.composes_composeSet s _ _ _ trivial hRun).2
  have hStep : (Constraint.composeSet s).run.run lists = (r, left) := hRun
  rw [composeWith, hStep]
  exact hResult.map _

theorem failsElsewhere_compose (s : ConstraintSet) : FailsElsewhere s.compose := s.failsElsewhere_composeWith []

end ConstraintSet

namespace Query

theorem failsElsewhere_composeSection (q : Query) (params : Fields Json) (part : Section) (lists : ClauseLists) :
    FailsElsewhere (q.composeSection params part lists).1 := by
  cases part with
  | conditions => exact (q.conditions.failsElsewhere_composeWith lists).map _
  | _ => exact .ret _

theorem failsElsewhere_compose (q : Query) : FailsElsewhere q.compose := by
  have hSections (parts : List Section) (params : Fields Json) : Constraint.Composes
      (parts.foldlM (fun params part => ExceptT.mk fun lists => q.composeSection params part lists) params) := by
    induction parts generalizing params with
    | nil => exact .ret params
    | cons part rest ih =>
      rw [List.foldlM_cons]
      refine GoesOn.bind ?_ fun params => ih params
      exact .of_runs fun lists _ => ⟨_, _, rfl, trivial, q.failsElsewhere_composeSection params part lists⟩
  exact (hSections sections [] _ _ _ trivial rfl).2

theorem failsElsewhere_present (q : Query) (found : List Record) : FailsElsewhere (q.present found) :=
  (FailsElsewhere.ofData _).bind fun _ => (FailsElsewhere.ofData _).bind fun _ => .ret _

end Query

end RecordCache
