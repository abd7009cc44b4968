import Mathlib.Data.List.Induction
import RecordCache.Proofs.Assoc
import RecordCache.Proofs.Constraint.Reading
import RecordCache.Proofs.Value.Equality

/-!
# What composing keeps of a set

A `where` object has one place for each key and operator. The first constraint there stays, unless a later
one restates it: then the later one takes its place. Whatever else is said there goes into `$and`.
`ConstraintSet.kept` is the set without the constraints that were replaced, at every level of disjunctions.
Arguments are compared as documents, so `true` is restated by 1; in a `typed` set, only equal values restate
one another, and what is kept says what the set says.
-/

namespace RecordCache

namespace Constraint

/-- The operators of the condition, with their arguments. -/
def operation : Constraint → Fields Json
  | .equalTo _ value _ => [("$eq", value.json)]
  | .greaterThan _ value => [("$gt", value.json)]
  | .lessThan _ value => [("$lt", value.json)]
  | .present _ expected => [("$exists", .bool expected)]
  | .matching _ p => [("$regex", p.source), ("$options", .string p.optionLetters)]
  | .oneOf _ values => [("$in", .array (values.map Value.json))]
  | .noneOf _ values => [("$nin", .array (values.map Value.json))]
  | _ => []

/-- The key and the operator that the constraint is found by. -/
def slot : Constraint → String × String
  | .equalTo key _ _ => (key, "$eq")
  | .greaterThan key _ => (key, "$gt")
  | .lessThan key _ => (key, "$lt")
  | .present key _ => (key, "$exists")
  | .matching key _ => (key, "$regex")
  | .oneOf key _ => (key, "$in")
  | .noneOf key _ => (key, "$nin")
  | .either _ _ => ("", "$or")
  | .relatedTo _ _ => ("", "$relatedTo")
  | .selected key _ _ => (key, "$select")
  | .notSelected key _ _ => (key, "$dontSelect")

/-- Has arguments, and they are those of the other one. -/
def restatedBy (old new : Constraint) : Bool :=
  !new.operation.isEmpty && Json.sameParts (old.operation.map Prod.snd) (new.operation.map Prod.snd)

/-- The constraints in their places, and the others in the order in which they came. -/
structure Arranged where
  tops : Assoc (String × String) Constraint := []
  rest : List Constraint := []

namespace Arranged

def add (a : Arranged) (c : Constraint) : Arranged :=
  match a.tops.get? c.slot with
  | none => { a with tops := a.tops.set c.slot c }
  | some old =>
    if old.restatedBy c then { a with tops := a.tops.set c.slot c }
    else { a with rest := a.rest ++ [c] }

def all (a : Arranged) : List Constraint := a.tops.map Prod.snd ++ a.rest

end Arranged

def arrange (constraints : List Constraint) : Arranged := constraints.foldl Arranged.add {}

mutual

def kept : Constraint → Constraint
  | .either left right => .either (keptSet left) (keptSet right)
  | c => c

def keptSet : Conjunction Constraint → Conjunction Constraint
  | ⟨className, constraints⟩ => ⟨className, (arrange (keptAll constraints)).all⟩

def keptAll : List Constraint → List Constraint
  | [] => []
  | c :: rest => kept c :: keptAll rest

end

/-- Elements of a set, in pairs that count as one. -/
def sameElements : List Value → List Value → Bool
  | [], [] => true
  | v :: vs, v' :: vs' => v.sameKey v' && sameElements vs vs'
  | _, _ => false

/-- The same condition on equal values. -/
def sameMeaning : Constraint → Constraint → Bool
  | .equalTo k v _, .equalTo k' v' _ => k == k' && v.same v'
  | .greaterThan k v, .greaterThan k' v' => k == k' && v.same v'
  | .lessThan k v, .lessThan k' v' => k == k' && v.same v'
  | .present k b, .present k' b' => k == k' && b == b'
  | .matching k p, .matching k' p' => k == k' && p.same p'
  | .oneOf k vs, .oneOf k' vs' => k == k' && sameElements vs vs'
  | .noneOf k vs, .noneOf k' vs' => k == k' && sameElements vs vs'
  | _, _ => false

mutual

/-- What restates an earlier constraint has the same meaning. -/
def typed : Constraint → Bool
  | .either left right => setTyped left && setTyped right
  | _ => true

def setTyped : Conjunction Constraint → Bool
  | ⟨_, constraints⟩ => allTyped constraints

def allTyped : List Constraint → Bool
  | [] => true
  | c :: rest =>
    typed c && (rest.all fun later =>
      !(c.slot == later.slot && c.restatedBy later) || c.sameMeaning later) &&
      allTyped rest

end

/-! ### Places -/

namespace Arranged

/-- Every constraint stands in its place. -/
structure Valid (a : Arranged) : Prop where
  nodup : a.tops.keys.Nodup
  slot_eq : ∀ {slot c}, a.tops.get? slot = some c → c.slot = slot

theorem mem_all {a : Arranged} (ha : a.Valid) {c : Constraint} :
    c ∈ a.all ↔ a.tops.get? c.slot = some c ∨ c ∈ a.rest := by
  rw [all, List.mem_append]
  apply or_congr_left
  constructor
  · intro h
    obtain ⟨⟨slot, c'⟩, hMem, rfl⟩ := List.mem_map.mp h
    have hGet := Assoc.get?_of_mem ha.nodup hMem
    rwa [ha.slot_eq hGet]
  · intro h
    exact List.mem_map.mpr ⟨_, Assoc.mem_of_get? h, rfl⟩

theorem valid_set {a : Arranged} (ha : a.Valid) (c : Constraint) :
    Valid { a with tops := a.tops.set c.slot c } where
  nodup := Assoc.nodup_keys_set ha.nodup _ _
  slot_eq := by
    intro slot c' h
    rw [Assoc.get?_set] at h
    split at h
    · next hSlot =>
      cases h
      exact hSlot
    · exact ha.slot_eq h

theorem valid_add {a : Arranged} (ha : a.Valid) (c : Constraint) : (a.add c).Valid := by
  rw [add]
  split
  · exact valid_set ha c
  · split
    · exact valid_set ha c
    · exact ⟨ha.nodup, ha.slot_eq⟩

theorem mem_all_set {a : Arranged} (ha : a.Valid) {c c' : Constraint} :
    c' ∈ all { a with tops := a.tops.set c.slot c } ↔ c' = c ∨ c' ∈ a.all ∧
      (c'.slot = c.slot → c' ∈ a.rest) := by
  rw [mem_all (valid_set ha c), mem_all ha, Assoc.get?_set]
  by_cases hSlot : c.slot = c'.slot
  · rw [if_pos hSlot, Option.some.injEq, eq_comm]
    constructor
    · exact Or.imp_right fun h => ⟨.inr h, fun _ => h⟩
    · exact Or.imp_right fun h => h.2 hSlot.symm
  · rw [if_neg hSlot]
    constructor
    · exact fun h => .inr ⟨h, fun hEq => absurd hEq.symm hSlot⟩
    · rintro (rfl | h)
      · exact absurd rfl hSlot
      · exact h.1

theorem mem_of_mem_add {a : Arranged} (ha : a.Valid) {c c' : Constraint} (h : c' ∈ (a.add c).all) :
    c' = c ∨ c' ∈ a.all := by
  rw [add] at h
  split at h
  · exact ((mem_all_set ha).mp h).imp_right And.left
  · split at h
    · exact ((mem_all_set ha).mp h).imp_right And.left
    · rw [all, ← List.append_assoc, List.mem_append, List.mem_singleton] at h
      exact h.symm

/-- Whatever was there stays there, unless it was restated; the new constraint is there. -/
theorem mem_add {a : Arranged} (ha : a.Valid) (c : Constraint) :
    c ∈ (a.add c).all ∧
      ∀ c' ∈ a.all, c' ∈ (a.add c).all ∨ a.tops.get? c.slot = some c' ∧ c'.restatedBy c = true := by
  rw [add]
  split
  · next hNone =>
    refine ⟨(mem_all_set ha).mpr (.inl rfl), fun c' hc' => .inl ((mem_all_set ha).mpr (.inr ⟨hc', ?_⟩))⟩
    intro hSlot
    rw [mem_all ha, hSlot, hNone] at hc'
    exact hc'.resolve_left nofun
  · next old hOld =>
    split
    · next hRestated =>
      refine ⟨(mem_all_set ha).mpr (.inl rfl), fun c' hc' => ?_⟩
      by_cases hSlot : c'.slot = c.slot
      · rcases (mem_all ha).mp hc' with hTop | hRest
        · rw [hSlot, hOld] at hTop
          cases hTop
          exact .inr ⟨hOld, hRestated⟩
        · exact .inl ((mem_all_set ha).mpr (.inr ⟨hc', fun _ => hRest⟩))
      · exact .inl ((mem_all_set ha).mpr (.inr ⟨hc', fun h => absurd h hSlot⟩))
    · rw [all, ← List.append_assoc]
      exact ⟨List.mem_append_right _ List.mem_cons_self, fun c' hc' => .inl (List.mem_append_left _ hc')⟩

end Arranged

theorem arrange_append (constraints : List Constraint) (c : Constraint) :
    arrange (constraints ++ [c]) = (arrange constraints).add c := by
  rw [arrange, List.foldl_append]
  rfl

theorem valid_arrange (constraints : List Constraint) : (arrange constraints).Valid := by
  induction constraints using List.reverseRec with
  | nil => exact ⟨List.nodup_nil, nofun⟩
  | append_singleton rest c ih =>
    rw [arrange_append]
    exact Arranged.valid_add ih c

theorem mem_of_mem_arrange {constraints : List Constraint} {c : Constraint}
    (h : c ∈ (arrange constraints).all) :
    c ∈ constraints := by
  induction constraints using List.reverseRec with
  | nil => cases h
  | append_singleton rest last ih =>
    rw [arrange_append] at h
    rcases Arranged.mem_of_mem_add (valid_arrange rest) h with rfl | hMem
    · exact List.mem_append_right _ List.mem_cons_self
    · exact List.mem_append_left _ (ih hMem)

/-! ### What is kept fits when everything does -/

mutual

theorem fits_kept {r : Record} : ∀ {c : Constraint}, fits r c = true → fits r (kept c) = true
  | .either left right, h => by
    rw [fits, Bool.or_eq_true] at h
    rw [kept, fits, Bool.or_eq_true]
    exact h.imp setFits_kept setFits_kept
  | .equalTo _ _ _, h => h
  | .greaterThan _ _, h => h
  | .lessThan _ _, h => h
  | .present _ _, h => h
  | .matching _ _, h => h
  | .oneOf _ _, h => h
  | .noneOf _ _, h => h
  | .relatedTo _ _, h => h
  | .selected _ _ _, h => h
  | .notSelected _ _ _, h => h

theorem setFits_kept {r : Record} :
    ∀ {s : Conjunction Constraint}, setFits r s = true → setFits r (keptSet s) = true
  | ⟨_, constraints⟩, h => by
    rw [keptSet, setFits, allFit_iff]
    intro c hc
    exact allFit_kept h c (mem_of_mem_arrange hc)

theorem allFit_kept {r : Record} :
    ∀ {constraints : List Constraint}, allFit r constraints = true → ∀ c ∈ keptAll constraints,
      fits r c = true
  | [], _ => nofun
  | c :: rest, h => by
    rw [allFit, Bool.and_eq_true] at h
    rw [keptAll, List.forall_mem_cons]
    exact ⟨fits_kept h.1, allFit_kept h.2⟩

end

end Constraint

end RecordCache
