import RecordCache.Constraint.Resolve
import RecordCache.Proofs.Constraint.Failures
import RecordCache.Proofs.Constraint.Local

/-!
# Sets without sub-queries

Resolving a set asks for each of its sub-queries once, in order, those in the sides of disjunctions included, and
puts the answers in their places: membership stands where a sub-query stood. What comes out can be matched without
the server wherever the set could, whatever the answers are.
-/

namespace RecordCache

namespace Constraint

/-- What a sub-query asks for: the values of a field, in the records that satisfy a set. -/
structure SubQuery where
  matchKey : String
  inner : ConstraintSet

/-- The constraint is this sub-query. -/
def IsSubQuery (q : SubQuery) : Constraint → Prop
  | .selected _ matchKey inner => q = ⟨matchKey, inner⟩
  | .notSelected _ matchKey inner => q = ⟨matchKey, inner⟩
  | _ => False

mutual

/-- The sub-queries in their order; those of inner sets are left to whoever answers them. -/
def subQueries : Constraint → List SubQuery
  | .either left right => setSubQueries left ++ setSubQueries right
  | .selected _ matchKey inner => [⟨matchKey, inner⟩]
  | .notSelected _ matchKey inner => [⟨matchKey, inner⟩]
  | _ => []

def setSubQueries : Conjunction Constraint → List SubQuery
  | ⟨_, constraints⟩ => allSubQueries constraints

def allSubQueries : List Constraint → List SubQuery
  | [] => []
  | c :: rest => subQueries c ++ allSubQueries rest

end

mutual

/-- The constraint with answers, one for each sub-query, in their places. -/
def fill : Constraint → List (List Value) → Constraint
  | .either left right, answers =>
    .either (fillSet left (answers.take (setSubQueries left).length))
      (fillSet right (answers.drop (setSubQueries left).length))
  | .selected key _ _, answers => .oneOf key (answers.headD [])
  | .notSelected key _ _, answers => .noneOf key (answers.headD [])
  | c, _ => c

def fillSet : Conjunction Constraint → List (List Value) → Conjunction Constraint
  | ⟨className, constraints⟩, answers => ⟨className, fillAll constraints answers⟩

def fillAll : List Constraint → List (List Value) → List Constraint
  | [], _ => []
  | c :: rest, answers =>
    fill c (answers.take (subQueries c).length) :: fillAll rest (answers.drop (subQueries c).length)

end

/-! ### Asking -/

section Asking

variable {m : Type → Type} [Monad m] [LawfulMonad m]

/-- Results that are put together from those of two lists may be got one list after the other. -/
theorem map_mapM_append {α β γ : Type} (f : α → m β) {xs ys : List α} {g : List β → γ} {k : List β → List β → γ}
    (h : ∀ as bs, as.length = xs.length → g (as ++ bs) = k as bs) :
    g <$> (xs ++ ys).mapM f = do
      let as ← xs.mapM f
      return k as (← ys.mapM f) := by
  induction xs generalizing g k with
  | nil =>
    have hSecond : g = k [] := funext fun bs => h [] bs rfl
    simp [hSecond]
  | cons x rest ih =>
    have hRest (b : β) := ih (g := fun bs => g (b :: bs)) (k := fun as bs => k (b :: as) bs)
      fun as bs hLength => h (b :: as) bs (congrArg (· + 1) hLength)
    simp only [List.cons_append, List.mapM_cons, map_bind, map_pure, bind_assoc, pure_bind]
    refine bind_congr fun b => ?_
    rw [← hRest b]
    exact bind_pure_comp _ _

/-- How a resolver is asked for a sub-query. -/
def ask (find : Resolver m) (q : SubQuery) : m (List Value) := find q.matchKey q.inner (resolveSetWith find q.inner)

variable (find : Resolver m)

mutual

theorem resolveWith_eq_fill : ∀ c : Constraint, resolveWith find c = fill c <$> (subQueries c).mapM (ask find)
  | .either left right => by
    have hSplit (as bs : List (List Value)) (hLength : as.length = (setSubQueries left).length) :
        fill (.either left right) (as ++ bs) = .either (fillSet left as) (fillSet right bs) := by
      rw [fill, List.take_left' hLength, List.drop_left' hLength]
    rw [subQueries, map_mapM_append (ask find) hSplit, resolveWith, resolveSetWith_eq_fill left,
      resolveSetWith_eq_fill right]
    simp only [bind_map_left]
  | .selected _ _ _ => by simp [resolveWith, subQueries, fill, ask]
  | .notSelected _ _ _ => by simp [resolveWith, subQueries, fill, ask]
  | .equalTo _ _ _ => by simp [resolveWith, subQueries, fill]
  | .greaterThan _ _ => by simp [resolveWith, subQueries, fill]
  | .lessThan _ _ => by simp [resolveWith, subQueries, fill]
  | .present _ _ => by simp [resolveWith, subQueries, fill]
  | .matching _ _ => by simp [resolveWith, subQueries, fill]
  | .oneOf _ _ => by simp [resolveWith, subQueries, fill]
  | .noneOf _ _ => by simp [resolveWith, subQueries, fill]
  | .relatedTo _ _ => by simp [resolveWith, subQueries, fill]

theorem resolveSetWith_eq_fill : ∀ s : Conjunction Constraint,
    resolveSetWith find s = fillSet s <$> (setSubQueries s).mapM (ask find)
  | ⟨className, constraints⟩ => by
    rw [resolveSetWith, resolveAllWith_eq_fill constraints, bind_map_left]
    simp only [setSubQueries, fillSet, bind_pure_comp]

theorem resolveAllWith_eq_fill : ∀ constraints : List Constraint,
    resolveAllWith find constraints = fillAll constraints <$> (allSubQueries constraints).mapM (ask find)
  | [] => by simp [resolveAllWith, allSubQueries, fillAll]
  | c :: rest => by
    have hSplit (as bs : List (List Value)) (hLength : as.length = (subQueries c).length) :
        fillAll (c :: rest) (as ++ bs) = fill c as :: fillAll rest bs := by
      rw [fillAll, List.take_left' hLength, List.drop_left' hLength]
    rw [allSubQueries, map_mapM_append (ask find) hSplit, resolveAllWith, resolveWith_eq_fill c,
      resolveAllWith_eq_fill rest]
    simp only [bind_map_left]

end

end Asking

/-! ### What the sub-queries are -/

theorem mem_allSubQueries_iff {q : SubQuery} (constraints : List Constraint) :
    q ∈ allSubQueries constraints ↔ ∃ c ∈ constraints, q ∈ subQueries c := by
  induction constraints with
  | nil => simp [allSubQueries]
  | cons c rest ih => simp [allSubQueries, ih]

theorem mem_setSubQueries {q : SubQuery} {s : ConstraintSet} {c : Constraint} (hMem : c ∈ s.constraints)
    (h : q ∈ subQueries c) : q ∈ setSubQueries s := by
  obtain ⟨className, constraints⟩ := s
  exact (mem_allSubQueries_iff constraints).mpr ⟨c, hMem, h⟩

theorem mem_setSubQueries_of_within {q : SubQuery} {s : ConstraintSet} {c : Constraint} (hIn : Within c s)
    (h : IsSubQuery q c) : q ∈ setSubQueries s := by
  induction hIn with
  | here hMem =>
    refine mem_setSubQueries hMem ?_
    cases c <;> first | exact List.mem_singleton.mpr h | cases h
  | left hMem _ ih =>
    refine mem_setSubQueries hMem ?_
    rw [subQueries]
    exact List.mem_append_left _ ih
  | right hMem _ ih =>
    refine mem_setSubQueries hMem ?_
    rw [subQueries]
    exact List.mem_append_right _ ih

mutual

theorem asked_of_mem {q : SubQuery} (className : String) : ∀ {c : Constraint}, q ∈ subQueries c →
    ∃ c', Within c' ⟨className, [c]⟩ ∧ IsSubQuery q c'
  | .either left right, h => by
    rw [subQueries, List.mem_append] at h
    rcases h with h | h
    · obtain ⟨c', hIn, hIs⟩ := asked_of_mem_set h
      exact ⟨c', .left List.mem_cons_self hIn, hIs⟩
    · obtain ⟨c', hIn, hIs⟩ := asked_of_mem_set h
      exact ⟨c', .right List.mem_cons_self hIn, hIs⟩
  | .selected _ _ _, h => ⟨_, .here List.mem_cons_self, List.mem_singleton.mp h⟩
  | .notSelected _ _ _, h => ⟨_, .here List.mem_cons_self, List.mem_singleton.mp h⟩
  | .equalTo _ _ _, h => nomatch h
  | .greaterThan _ _, h => nomatch h
  | .lessThan _ _, h => nomatch h
  | .present _ _, h => nomatch h
  | .matching _ _, h => nomatch h
  | .oneOf _ _, h => nomatch h
  | .noneOf _ _, h => nomatch h
  | .relatedTo _ _, h => nomatch h

theorem asked_of_mem_set {q : SubQuery} : ∀ {s : Conjunction Constraint}, q ∈ setSubQueries s →
    ∃ c, Within c s ∧ IsSubQuery q c
  | ⟨className, _⟩, h => by
    rw [setSubQueries] at h
    exact asked_of_mem_all className h

theorem asked_of_mem_all {q : SubQuery} (className : String) : ∀ {constraints : List Constraint},
    q ∈ allSubQueries constraints → ∃ c, Within c ⟨className, constraints⟩ ∧ IsSubQuery q c
  | [], h => nomatch h
  | c :: rest, h => by
    rw [allSubQueries, List.mem_append] at h
    rcases h with h | h
    · obtain ⟨c', hIn, hIs⟩ := asked_of_mem className h
      exact ⟨c', hIn.mono (by simp), hIs⟩
    · obtain ⟨c', hIn, hIs⟩ := asked_of_mem_all className h
      exact ⟨c', hIn.mono (by simp), hIs⟩

end

/-! ### What comes out -/

mutual

theorem hasSubQueries_fill : ∀ (c : Constraint) (answers : List (List Value)), hasSubQueries (fill c answers) = false
  | .either left right, answers => by
    rw [fill, hasSubQueries, setHasSubQueries_fillSet left, setHasSubQueries_fillSet right, Bool.or_self]
  | .selected _ _ _, _ => rfl
  | .notSelected _ _ _, _ => rfl
  | .equalTo _ _ _, _ => rfl
  | .greaterThan _ _, _ => rfl
  | .lessThan _ _, _ => rfl
  | .present _ _, _ => rfl
  | .matching _ _, _ => rfl
  | .oneOf _ _, _ => rfl
  | .noneOf _ _, _ => rfl
  | .relatedTo _ _, _ => rfl

theorem setHasSubQueries_fillSet : ∀ (s : Conjunction Constraint) (answers : List (List Value)),
    setHasSubQueries (fillSet s answers) = false
  | ⟨_, constraints⟩, answers => by
    rw [fillSet, setHasSubQueries, anyHasSubQueries_fillAll constraints]

theorem anyHasSubQueries_fillAll : ∀ (constraints : List Constraint) (answers : List (List Value)),
    anyHasSubQueries (fillAll constraints answers) = false
  | [], _ => rfl
  | c :: rest, answers => by
    rw [fillAll, anyHasSubQueries, hasSubQueries_fill c, anyHasSubQueries_fillAll rest, Bool.or_self]

end

mutual

/-- Where a sub-query stood, membership stands, and both may be evaluated on cached records. -/
theorem allowsLocal_fill : ∀ (c : Constraint) (answers : List (List Value)),
    allowsLocal (fill c answers) = allowsLocal c
  | .either left right, answers => by
    rw [fill, allowsLocal, allowsLocal, setAllowsLocal_fillSet left, setAllowsLocal_fillSet right]
  | .selected _ _ _, _ => rfl
  | .notSelected _ _ _, _ => rfl
  | .equalTo _ _ _, _ => rfl
  | .greaterThan _ _, _ => rfl
  | .lessThan _ _, _ => rfl
  | .present _ _, _ => rfl
  | .matching _ _, _ => rfl
  | .oneOf _ _, _ => rfl
  | .noneOf _ _, _ => rfl
  | .relatedTo _ _, _ => rfl

theorem setAllowsLocal_fillSet : ∀ (s : Conjunction Constraint) (answers : List (List Value)),
    setAllowsLocal (fillSet s answers) = setAllowsLocal s
  | ⟨_, constraints⟩, answers => by
    rw [fillSet, setAllowsLocal, setAllowsLocal, allAllowLocal_fillAll constraints]

theorem allAllowLocal_fillAll : ∀ (constraints : List Constraint) (answers : List (List Value)),
    allAllowLocal (fillAll constraints answers) = allAllowLocal constraints
  | [], _ => rfl
  | c :: rest, answers => by
    rw [fillAll, allAllowLocal, allAllowLocal, allowsLocal_fill c, allAllowLocal_fillAll rest]

end

mutual

theorem fill_plain : ∀ {c : Constraint} (answers : List (List Value)), hasSubQueries c = false → fill c answers = c
  | .either left right, answers, hPlain => by
    rw [hasSubQueries, Bool.or_eq_false_iff] at hPlain
    rw [fill, fillSet_plain _ hPlain.1, fillSet_plain _ hPlain.2]
  | .selected _ _ _, _, hPlain => nomatch hPlain
  | .notSelected _ _ _, _, hPlain => nomatch hPlain
  | .equalTo _ _ _, _, _ => rfl
  | .greaterThan _ _, _, _ => rfl
  | .lessThan _ _, _, _ => rfl
  | .present _ _, _, _ => rfl
  | .matching _ _, _, _ => rfl
  | .oneOf _ _, _, _ => rfl
  | .noneOf _ _, _, _ => rfl
  | .relatedTo _ _, _, _ => rfl

theorem fillSet_plain : ∀ {s : Conjunction Constraint} (answers : List (List Value)), setHasSubQueries s = false →
    fillSet s answers = s
  | ⟨_, _⟩, answers, hPlain => by
    rw [fillSet, fillAll_plain answers hPlain]

theorem fillAll_plain : ∀ {constraints : List Constraint} (answers : List (List Value)),
    anyHasSubQueries constraints = false → fillAll constraints answers = constraints
  | [], _, _ => rfl
  | c :: rest, answers, hPlain => by
    rw [anyHasSubQueries, Bool.or_eq_false_iff] at hPlain
    rw [fillAll, fill_plain _ hPlain.1, fillAll_plain _ hPlain.2]

end

end Constraint

namespace ConstraintSet

open Constraint (SubQuery IsSubQuery Within ask setSubQueries fillSet)

def subQueries (s : ConstraintSet) : List SubQuery := setSubQueries s

def filled (s : ConstraintSet) (answers : List (List Value)) : ConstraintSet := fillSet s answers

/-- Each sub-query that is in no inner set is asked for once, in order, and what comes out has none; it may be
evaluated on cached records, and that never fails as on a sub-query or a relation. A set without sub-queries comes out
as it is. -/
theorem resolved_matchable {m : Type → Type} [Monad m] [LawfulMonad m] (find : Constraint.Resolver m)
    {s : ConstraintSet} (hLocal : s.allowsLocal = true) :
    s.resolveWith find = s.filled <$> s.subQueries.mapM (ask find) ∧
      (∀ q, q ∈ s.subQueries ↔ ∃ c, Within c s ∧ IsSubQuery q c) ∧
      ∀ answers : List (List Value),
        (s.filled answers).hasSubQueries = false ∧ (s.filled answers).allowsLocal = true ∧
        (s.hasSubQueries = false → s.filled answers = s) ∧
        ∀ (r : Record) (fault : MatchFault), (s.filled answers).holds r ≠ .error (.unmatchable fault) := by
  refine ⟨Constraint.resolveSetWith_eq_fill find s, fun q => ⟨Constraint.asked_of_mem_set, ?_⟩, fun answers => ?_⟩
  · rintro ⟨c, hIn, hIs⟩
    exact Constraint.mem_setSubQueries_of_within hIn hIs
  have hPlain : (s.filled answers).hasSubQueries = false := Constraint.setHasSubQueries_fillSet s answers
  have hStill : (s.filled answers).allowsLocal = true := (Constraint.setAllowsLocal_fillSet s answers).trans hLocal
  refine ⟨hPlain, hStill, Constraint.fillSet_plain answers, fun r fault hFails => ?_⟩
  have hInData : FailsInData ((s.filled answers).holds r) :=
    Constraint.failsAs_setHolds (fun fault => ⟨fault, rfl⟩) r (.inr ⟨hStill, hPlain⟩)
  obtain ⟨dataFault, hData⟩ := hInData _ hFails
  cases hData

/-- A sub-query in a side of a disjunction and one beside it are asked for, and the one in an inner set is not. -/
theorem resolved_matchable_nested :
    ∃ resolved : ConstraintSet,
      (ConstraintSet.resolveWith
        ⟨"Note", [.either ⟨"Note", [.selected "ref" "name" ⟨"Other", [.notSelected "a" "b" ⟨"Other", []⟩]⟩]⟩
            ⟨"Note", [.present "title" true]⟩,
          .notSelected "author" "objectId" ⟨"_User", []⟩]⟩
        (fun key _ _ => modifyGet fun asked => ([.scalar (.string key)], asked ++ [key])) :
          StateM (List String) ConstraintSet).run [] = (resolved, ["name", "objectId"]) ∧
      resolved.hasSubQueries = false ∧ resolved.allowsLocal = true ∧
      ∀ (r : Record) (fault : MatchFault), resolved.holds r ≠ .error (.unmatchable fault) := by
  obtain ⟨hRun, -, hFilled⟩ := resolved_matchable (m := StateM (List String))
    (fun key _ _ => modifyGet fun asked => ([.scalar (.string key)], asked ++ [key]))
    (s := ⟨"Note", [.either ⟨"Note", [.selected "ref" "name" ⟨"Other", [.notSelected "a" "b" ⟨"Other", []⟩]⟩]⟩
        ⟨"Note", [.present "title" true]⟩,
      .notSelected "author" "objectId" ⟨"_User", []⟩]⟩) rfl
  obtain ⟨hPlain, hStill, -, hMatches⟩ := hFilled [[.scalar (.string "name")], [.scalar (.string "objectId")]]
  exact ⟨_, congrArg (fun work => StateT.run work []) hRun, hPlain, hStill, hMatches⟩

end ConstraintSet

end RecordCache
