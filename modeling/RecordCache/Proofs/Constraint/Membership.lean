import RecordCache.Proofs.Constraint.Interchange
import RecordCache.Proofs.Constraint.Satisfies

/-!
# Membership and equality

A field is looked up among values as in a set, where an element counts by how it is written unless its contents
tell. That comes to the same as comparing the field with one value after the other just where every value and
every candidate that is looked at can be looked up, no candidate equals a value only in another writing, and no
pointer is found by an id that is no text.
-/

namespace RecordCache.Constraint

variable {r : Record} {key : String} {values values' candidates rest : List Value} {c : Value}

/-- Points to an object whose id is a text among the values. -/
def PointsInto (values : List Value) (c : Value) : Prop :=
  ∃ p id, c = .pointer p ∧ p.objectId = .string id ∧ .scalar (.string id) ∈ values

/-- Equal to a value, or a pointer to an object that is named by one. -/
def IsMember (values : List Value) (c : Value) : Prop := (∃ v ∈ values, c.same v = true) ∨ PointsInto values c

/-- The field is found among the values just where it equals one of them or points to an object that is named. -/
def AgreesWithEquality (r : Record) (key : String) (values candidates : List Value) : Prop :=
  ∃ b, holds r (.oneOf key values) = .ok b ∧
    (b = true ↔ (∃ v ∈ values, holds r (.equalTo key v) = .ok true) ∨ ∃ c ∈ candidates, PointsInto values c)

/-- An element of the set counts as the candidate, or as the id that it points to. -/
def isFound (values : List Value) (c : Value) : Bool := values.any (matchesElement c)

/-- The candidates can be looked up, from the first one to one that is found. -/
def Reached (values : List Value) : List Value → Prop
  | [] => True
  | c :: rest => c.isKey = true ∧ (isFound values c = false → Reached values rest)

/-- Nothing keeps the lookup from saying what equality says. -/
structure LooksUpAsEqual (values candidates : List Value) : Prop where
  /-- No value is a pointer with a list or an object in it. -/
  keys : ∀ v ∈ values, v.isKey = true
  reached : Reached values candidates
  /-- Where a candidate equals a value, one of them does so as an element of the set. -/
  written : ∀ c ∈ candidates, ∀ v ∈ values, c.same v = true → ∃ d ∈ candidates, isFound values d = true
  /-- Where a pointer is found by its id, a candidate equals a value or is named by a text. -/
  named : ∀ p, .pointer p ∈ candidates → ∀ v ∈ values, (Value.scalar (Scalar.ofJson p.objectId)).sameKey v = true →
    ∃ c ∈ candidates, IsMember values c

/-! ### What is found -/

theorem matchesElement_iff {v : Value} :
    matchesElement c v = true ↔
      c.sameKey v = true ∨ ∃ p, c = .pointer p ∧ (Value.scalar (Scalar.ofJson p.objectId)).sameKey v = true := by
  cases c <;> simp [matchesElement]

theorem same_of_sameKey {a b : Value} (h : a.sameKey b = true) : a.same b = true := (Bool.and_eq_true_iff.mp h).1

theorem isFound_of_pointsInto (h : PointsInto values c) : isFound values c = true := by
  obtain ⟨p, id, rfl, hId, hMem⟩ := h
  have hName : (Value.scalar (Scalar.ofJson p.objectId)).sameKey (.scalar (.string id)) = true := by
    rw [hId]
    simp [Scalar.ofJson, Value.sameKey, Value.same, Scalar.same, Value.keyedByContent]
  exact List.any_eq_true.mpr ⟨_, hMem, matchesElement_iff.mpr (.inr ⟨p, rfl, hName⟩)⟩

theorem LooksUpAsEqual.isFound_iff (h : LooksUpAsEqual values candidates) :
    (∃ c ∈ candidates, isFound values c = true) ↔ ∃ c ∈ candidates, IsMember values c := by
  constructor
  · rintro ⟨c, hc, hFound⟩
    obtain ⟨v, hv, hElement⟩ := List.any_eq_true.mp hFound
    rcases matchesElement_iff.mp hElement with hKey | ⟨p, rfl, hName⟩
    · exact ⟨c, hc, .inl ⟨v, hv, same_of_sameKey hKey⟩⟩
    · exact h.named p hc v hv hName
  · rintro ⟨c, hc, ⟨v, hv, hSame⟩ | hPoints⟩
    · exact h.written c hc v hv hSame
    · exact ⟨c, hc, isFound_of_pointsInto hPoints⟩

/-! ### Looking up -/

theorem anyInSet_cons (h : c.isKey = true) (rest : List Value) :
    anyInSet values (c :: rest) = if isFound values c then .ok true else anyInSet values rest := by
  rw [anyInSet, inSet_eq values h]
  rfl

theorem anyInSet_eq_ok_iff {b : Bool} :
    anyInSet values candidates = .ok b ↔ Reached values candidates ∧ candidates.any (isFound values) = b := by
  induction candidates with
  | nil => simp [anyInSet, Reached]
  | cons c rest ih =>
    cases hKey : c.isKey with
    | false => simp [anyInSet, inSet, Reached, hKey, bind, Except.bind]
    | true =>
      rw [anyInSet_cons hKey, Reached, List.any_cons]
      cases hFound : isFound values c with
      | true => simp [hKey, eq_comm]
      | false => simpa [hKey] using ih

theorem containsField_eq_ok_iff {b : Bool} (hCandidates : r.candidates key = .ok candidates) :
    containsField r key values = .ok b ↔
      (∀ v ∈ values, v.isKey = true) ∧ Reached values candidates ∧ candidates.any (isFound values) = b := by
  rw [containsField, Except.mapError_eq_ok, hCandidates, ← anyInSet_eq_ok_iff]
  cases hKeys : values.any fun v => !v.isKey with
  | true =>
    obtain ⟨v, hv, hNot⟩ := List.any_eq_true.mp hKeys
    have hSome : ¬ ∀ v ∈ values, v.isKey = true := fun hAll => by simp [hAll v hv] at hNot
    simp [hSome, throw, throwThe, MonadExceptOf.throw, bind, Except.bind]
  | false =>
    have hAll : ∀ v ∈ values, v.isKey = true := fun v hv => by simpa using List.any_eq_false.mp hKeys v hv
    rw [and_iff_right hAll]
    rfl

theorem holds_equalTo {v : Value} (hCandidates : r.candidates key = .ok candidates) :
    holds r (.equalTo key v) = .ok (candidates.any (·.same v)) := by
  rw [holds, anyCandidate, hCandidates]
  rfl

theorem isMember_iff_equalTo (hCandidates : r.candidates key = .ok candidates) :
    (∃ c ∈ candidates, IsMember values c) ↔
      (∃ v ∈ values, holds r (.equalTo key v) = .ok true) ∨ ∃ c ∈ candidates, PointsInto values c := by
  simp only [IsMember, and_or_left, exists_or, holds_equalTo hCandidates, Except.ok.injEq, List.any_eq_true]
  refine or_congr_left ⟨?_, ?_⟩
  · rintro ⟨c, hc, v, hv, hSame⟩
    exact ⟨v, hv, c, hc, hSame⟩
  · rintro ⟨v, hv, c, hc, hSame⟩
    exact ⟨c, hc, v, hv, hSame⟩

theorem containsField_of_subset (hForth : values ⊆ values') (hBack : values' ⊆ values) :
    containsField r key values = containsField r key values' := by
  have hAny (test : Value → Bool) : values.any test = values'.any test := by
    rw [Bool.eq_iff_iff, List.any_eq_true, List.any_eq_true]
    exact ⟨fun ⟨v, hv, hTest⟩ => ⟨v, hForth hv, hTest⟩, fun ⟨v, hv, hTest⟩ => ⟨v, hBack hv, hTest⟩⟩
  have hInSet (candidate : Value) : inSet values candidate = inSet values' candidate := by simp only [inSet, hAny]
  simp only [containsField, hAny, anyInSet_congr hInSet]

/-- A field is found among values as equality tells just where nothing keeps the lookup from that. Neither the
order of the values nor their repetition matters, and not to be among them is the opposite of being found. -/
theorem oneOf_agrees_iff (hCandidates : r.candidates key = .ok candidates) :
    (AgreesWithEquality r key values candidates ↔ LooksUpAsEqual values candidates) ∧
      (∀ values', values ⊆ values' → values' ⊆ values →
        holds r (.oneOf key values') = holds r (.oneOf key values)) ∧
      holds r (.noneOf key values) = (holds r (.oneOf key values)).map (!·) := by
  refine ⟨?_, fun values' hForth hBack => ?_, ?_⟩
  · rw [AgreesWithEquality, ← isMember_iff_equalTo hCandidates]
    simp only [holds, containsField_eq_ok_iff hCandidates]
    constructor
    · rintro ⟨b, ⟨hKeys, hReached, rfl⟩, hAgrees⟩
      rw [List.any_eq_true] at hAgrees
      refine ⟨hKeys, hReached, fun c hc v hv hSame => hAgrees.mpr ⟨c, hc, .inl ⟨v, hv, hSame⟩⟩, ?_⟩
      exact fun p hp v hv hName =>
        hAgrees.mp ⟨_, hp, List.any_eq_true.mpr ⟨v, hv, matchesElement_iff.mpr (.inr ⟨p, rfl, hName⟩)⟩⟩
    · intro h
      refine ⟨_, ⟨h.keys, h.reached, rfl⟩, ?_⟩
      rw [List.any_eq_true]
      exact h.isFound_iff
  · rw [holds, holds, containsField_of_subset hBack hForth]
  · rw [holds, holds]

/-- A note that credits a user by a pointer. -/
def creditedNote : Record :=
  Record.ofFields [("objectId", .string "n"), ("credits", .array [.string "staff", (Pointer.ofNames "_User" "u1").json])]

def creditedTo : List Value := [.scalar (.number (.int 3)), .scalar (.string "u1")]

theorem oneOf_agrees_iff_credited : ∃ credits, creditedNote.candidates "credits" = .ok credits ∧
    AgreesWithEquality creditedNote "credits" creditedTo credits ∧
    holds creditedNote (.oneOf "credits" creditedTo.reverse) = .ok true ∧
    holds creditedNote (.noneOf "credits" creditedTo) = .ok false := by
  have hCandidates : creditedNote.candidates "credits" =
      .ok [.raw (.array [.string "staff", (Pointer.ofNames "_User" "u1").json]), .scalar (.string "staff"),
        .pointer (.ofNames "_User" "u1")] := rfl
  have hNamed : PointsInto creditedTo (.pointer (.ofNames "_User" "u1")) := ⟨_, "u1", rfl, rfl, by simp [creditedTo]⟩
  obtain ⟨hAgrees, hOrder, hNone⟩ := @oneOf_agrees_iff creditedNote "credits" creditedTo _ hCandidates
  have hFound : holds creditedNote (.oneOf "credits" creditedTo) = .ok true := rfl
  refine ⟨_, hCandidates, hAgrees.mpr ⟨?_, ?_, ?_, ?_⟩, ?_, ?_⟩
  · intro v hv
    obtain rfl | rfl : v = .scalar (.number (.int 3)) ∨ v = .scalar (.string "u1") := by simpa [creditedTo] using hv
    · rfl
    · rfl
  · exact ⟨rfl, fun _ => ⟨rfl, fun _ => ⟨rfl, fun _ => trivial⟩⟩⟩
  · exact fun _ _ _ _ _ => ⟨_, by simp, isFound_of_pointsInto hNamed⟩
  · exact fun _ _ _ _ _ => ⟨_, by simp, .inr hNamed⟩
  · rw [hOrder _ (by simp) (by simp), hFound]
  · rw [hNone, hFound]
    rfl

def sizedNote : Record :=
  Record.ofFields [("objectId", .string "n"), ("size", .object [("width", .number (.float 1.0))])]

def unitSize : Value := .raw (.object [("width", .int 1)])

/-- A document equals another one that has 1 in the place of 1.0, and is not found by it. -/
theorem not_agrees_sized : ∃ candidates, sizedNote.candidates "size" = .ok candidates ∧
    holds sizedNote (.equalTo "size" unitSize) = .ok true ∧ holds sizedNote (.oneOf "size" [unitSize]) = .ok false ∧
    ¬ AgreesWithEquality sizedNote "size" [unitSize] candidates := by
  have hEqual : holds sizedNote (.equalTo "size" unitSize) = .ok true :=
    Except.toOption_eq_some_iff.mp (by decide +kernel)
  have hFound : holds sizedNote (.oneOf "size" [unitSize]) = .ok false :=
    Except.toOption_eq_some_iff.mp (by decide +kernel)
  refine ⟨_, rfl, hEqual, hFound, ?_⟩
  rintro ⟨b, hHolds, hAgrees⟩
  obtain rfl := Except.ok.inj (hFound.symm.trans hHolds)
  exact Bool.false_ne_true (hAgrees.mpr (.inl ⟨unitSize, by simp, hEqual⟩))

end RecordCache.Constraint
