import RecordCache.Proofs.Constraint.Layout

/-!
# What stays of a set

`Where.Keeps` says that every constraint of a set is found in the composed object, at the top or in a
clause of `$and`, with arguments that are read as equal values, and that constraints which differ are
found apart. It is so exactly when no argument is NaN and constraints that join one another are alike. The
sides of a disjunction, and the inner set of a sub-query, are sets of their own.
-/

namespace RecordCache

namespace Constraint

def Alike (c c' : Constraint) : Prop := c = c' ∨ c.same c' = true

/-- Whatever comes to stand in one place, at the top, is alike. -/
def Unmixed (constraints : List Constraint) : Prop :=
  ∀ c ∈ constraints, ∀ c' ∈ constraints, c.slot = c'.slot → JoinsFirst constraints c →
    JoinsFirst constraints c' → c.Alike c'

/-- Every argument equals itself, so that none is NaN. -/
def Steady (c : Constraint) : Prop := ∀ e ∈ c.meant, e.2.same e.2 = true

end Constraint

namespace Where

open Constraint

/-- The object itself, or one of its clauses. -/
def level (w : Where) : Option Nat → Option Where
  | none => some w
  | some n => ((w.get? clauseKey).bind Json.array?).bind fun clauses => clauses[n]?.bind Json.object?

/-- The operators of the constraint are there, with arguments that are read as equal values. -/
def States (w : Where) (c : Constraint) : Prop :=
  ∀ op v, Assoc.get? c.meant op = some v →
    ∃ j v', w.cell c.slot.1 op = some j ∧ Value.decode j = .ok v' ∧ v.same v' = true

/-- Every constraint is found somewhere, and those that differ are found apart. -/
def Keeps (w : Where) (constraints : List Constraint) : Prop :=
  ∃ place : Constraint → Option Nat,
    (∀ c ∈ constraints, ∃ found, w.level (place c) = some found ∧ found.States c) ∧
      ∀ c ∈ constraints, ∀ c' ∈ constraints, c.slot = c'.slot → place c = place c' → c.Alike c'

end Where

namespace Constraint

/-! ### Agreement -/

/-- Each value of the first is equal to the one that the second gives to the operator. -/
def Agrees (c d : Constraint) : Prop :=
  ∀ op v, Assoc.get? c.meant op = some v → ∃ v', Assoc.get? d.meant op = some v' ∧ v.same v' = true

section

variable {c d : Constraint}

theorem nodup_meant (c : Constraint) : (Assoc.keys c.meant).Nodup := by
  cases c <;> simp [meant, Assoc.keys]

theorem Steady.agrees (h : c.Steady) : c.Agrees c :=
  fun _ _ hv => ⟨_, hv, h _ (Assoc.mem_of_get? hv)⟩

theorem Agrees.steady (h : c.Agrees d) (hc : c.Legible) (hd : d.Legible) : c.Steady := by
  intro e he
  obtain ⟨v', hv', hSame⟩ := h _ _ (Assoc.get?_of_mem (nodup_meant c) he)
  have hDocuments := (hc.readsBack e he).1.hasDocuments
  have hDocuments' := (hd.readsBack _ (Assoc.mem_of_get? hv')).1.hasDocuments
  exact Value.same_trans hDocuments' hSame (Value.same_symm hDocuments hSame)

theorem Agrees.sameArguments (h : c.Agrees d) : SameArguments c d := by
  intro op j j' hc hd
  rw [get?_arguments, Option.map_eq_some_iff] at hc hd
  obtain ⟨v, hv, rfl⟩ := hc
  obtain ⟨v', hv', rfl⟩ := hd
  obtain ⟨v'', hv'', hSame⟩ := h op v hv
  cases hv'.symm.trans hv''
  exact Value.same_json hSame

theorem agrees_of_singleton {op : String} {v v' : Value} (hc : c.meant = [(op, v)])
    (hd : d.meant = [(op, v')]) (h : v.same v' = true) : c.Agrees d := by
  intro op' u hu
  rw [hc, Assoc.get?_cons] at hu
  split at hu
  · next hOp =>
    cases hu
    exact ⟨v', by rw [hd, Assoc.get?_cons, if_pos hOp], h⟩
  · cases hu

end

end Constraint

namespace Where.Lays

open Constraint

variable {w : Where} {a : Arranged} {c d : Constraint}

theorem family_of_meant {op : String} {v : Value} (h : Assoc.get? c.meant op = some v) :
    family op = c.slot.2 := by
  rw [← isSome_get?_arguments, get?_arguments, h]
  rfl

theorem cell_of_meant (h : Lays w a) (hc : c.Legible) {op : String} {v : Value}
    (hv : Assoc.get? c.meant op = some v) :
    w.cell c.slot.1 op = (a.tops.get? c.slot).bind fun top => (Assoc.get? top.meant op).map Value.json := by
  have hFamily := family_of_meant hv
  rw [h.cell hc.isFieldKey, Arranged.held, hFamily]
  · simp only [get?_arguments]
  · intro hGlobal
    rw [← isGlobal_family, hFamily] at hGlobal
    exact key_of_isGlobal hGlobal

/-- A constraint is stated when the one in its place agrees. -/
theorem states_iff (h : Lays w a) (hc : c.Legible) :
    w.States c ↔ ∃ top, a.tops.get? c.slot = some top ∧ c.Agrees top := by
  constructor
  · intro hStates
    obtain ⟨v, hv⟩ : ∃ v, Assoc.get? c.meant c.slot.2 = some v := by
      have hSome := (isSome_get?_arguments c _).mpr (family_slot c)
      rwa [get?_arguments, Option.isSome_map, Option.isSome_iff_exists] at hSome
    obtain ⟨j, -, hCell, -⟩ := hStates _ v hv
    rw [h.cell_of_meant hc hv] at hCell
    obtain ⟨top, hTop, -⟩ := Option.bind_eq_some_iff.mp hCell
    refine ⟨top, hTop, fun op v hv => ?_⟩
    obtain ⟨j, v', hCell, hDecode, hSame⟩ := hStates op v hv
    rw [h.cell_of_meant hc hv, hTop, Option.bind_some, Option.map_eq_some_iff] at hCell
    obtain ⟨u, hu, rfl⟩ := hCell
    obtain ⟨hDocument, hYear⟩ := (h.legible hTop).readsBack _ (Assoc.mem_of_get? hu)
    cases (hDocument.decode_json hYear).symm.trans hDecode
    exact ⟨u, hu, hSame⟩
  · rintro ⟨top, hTop, hAgrees⟩ op v hv
    obtain ⟨u, hu, hSame⟩ := hAgrees op v hv
    obtain ⟨hDocument, hYear⟩ := (h.legible hTop).readsBack _ (Assoc.mem_of_get? hu)
    refine ⟨u.json, u, ?_, hDocument.decode_json hYear, hSame⟩
    rw [h.cell_of_meant hc hv, hTop, Option.bind_some, hu]
    rfl

/-- A clause is laid out as the object of its constraint alone. -/
theorem entries (hd : d.Legible) : Lays d.entries { tops := [(d.slot, d)] } := by
  cases hField : isGlobal d.slot.2 with
  | false =>
    have hSet := Lays.empty.setOperators hd hField hd.isDocument_arguments fun op => by
      rw [operators_arguments, conditionOn, Assoc.get?_nil]
      exact (Option.or_none).symm
    rwa [Constraint.entries, hField]
  | true =>
    obtain ⟨j, hArguments⟩ : ∃ j, d.arguments = [(d.slot.2, j)] := by
      cases d <;> first | exact ⟨_, rfl⟩ | cases hField
    have hSet := Lays.empty.setGlobal hd hField (Prod.ext (key_of_isGlobal hField) rfl) hArguments
    rw [Constraint.entries, hField, hArguments]
    exact hSet

theorem level_clause (h : Lays w a) (n : Nat) : w.level (some n) = a.rest[n]?.map Constraint.entries := by
  rw [level, h.clauses]
  by_cases hRest : a.rest = []
  · rw [if_pos hRest, hRest]
    rfl
  · rw [if_neg hRest, Option.bind_some, Json.array?, Option.bind_some, List.getElem?_map, Option.bind_map]
    cases a.rest[n]? <;> rfl

theorem states_entries (hc : c.Legible) (hd : d.Legible) :
    d.entries.States c ↔ d.slot = c.slot ∧ c.Agrees d := by
  rw [(entries hd).states_iff hc]
  by_cases hSlot : d.slot = c.slot <;> simp [Assoc.get?_cons, hSlot]

end Where.Lays

namespace Constraint

variable {constraints : List Constraint} {c d : Constraint}

theorem sendable_of_mem (hs : AllSendable constraints) (hc : c ∈ constraints) : Sendable c := by
  induction constraints with
  | nil => cases hc
  | cons first rest ih =>
    rcases List.mem_cons.mp hc with rfl | hMem
    · exact hs.1
    · exact ih hs.2 hMem

theorem legible_of_mem (hs : AllSendable constraints) (c : Constraint) (hc : c ∈ constraints) : c.Legible :=
  (compose_lays (sendable_of_mem hs hc)).1

/-! ### Constraints that join the first one -/

theorem eq_of_joinsFirst_either (hSlot : c.slot = d.slot) (hEither : c.slot = ("", "$or"))
    (hc : JoinsFirst constraints c) (hd : JoinsFirst constraints d) : c = d := by
  have hNever {first e : Constraint} (he : e.slot = ("", "$or")) : first.joins e = false := by
    cases e <;> simp [slot] at he
    rfl
  obtain ⟨first, hFirst, hJoins⟩ := hc
  obtain ⟨first', hFirst', hJoins'⟩ := hd
  rw [← hSlot, hFirst] at hFirst'
  cases hFirst'
  rw [hNever hEither] at hJoins
  rw [hNever (hSlot ▸ hEither)] at hJoins'
  rcases hJoins with rfl | hJoins
  · rcases hJoins' with rfl | hJoins'
    · rfl
    · cases hJoins'
  · cases hJoins

theorem sameArguments_of_joinsFirst (hLegible : ∀ c ∈ constraints, c.Legible) (hSlot : c.slot = d.slot)
    (hField : isGlobal c.slot.2 = false) (hc : JoinsFirst constraints c) (hd : JoinsFirst constraints d) :
    c = d ∨ SameArguments c d := by
  obtain ⟨first, hFirst, hJoins⟩ := hc
  obtain ⟨first', hFirst', hJoins'⟩ := hd
  rw [← hSlot, hFirst] at hFirst'
  cases hFirst'
  obtain ⟨hMem, hFirstSlot⟩ := mem_of_firstAt hFirst
  rw [joins_iff hField] at hJoins
  rw [joins_iff (hSlot ▸ hField)] at hJoins'
  rcases hJoins with rfl | hSame
  · exact hJoins'
  · have hBack := (hLegible first hMem).sameArguments_symm hSame
    rcases hJoins' with rfl | hSame'
    · exact .inr hBack
    · exact .inr ((hLegible first hMem).sameArguments_trans hFirstSlot.symm hBack hSame')

theorem agrees_of_same_pattern {key key' : String} {p p' : Pattern} (hp : ∃ text, p.source = .string text)
    (hp' : ∃ text, p'.source = .string text) (h : p.same p' = true) :
    (matching key p).Agrees (matching key' p') := by
  obtain ⟨text, hText⟩ := hp
  obtain ⟨text', hText'⟩ := hp'
  rw [Pattern.same, Bool.and_eq_true, beq_iff_eq, hText, hText'] at h
  have hSource : text = text' := by simpa [Json.same, Json.sameScalar] using h.1
  have hMeant : (matching key p).meant = (matching key' p').meant := by
    rw [meant, meant, hText, hText', hSource, h.2]
  have hSteady : (matching key p).Steady := by
    intro e he
    rcases List.mem_cons.mp he with rfl | hMem
    · simp [Value.same, hText, Scalar.ofJson, Scalar.same]
    · simp [List.mem_singleton.mp hMem, Value.same, Scalar.same]
  rw [Agrees, ← hMeant]
  exact hSteady.agrees

theorem same_relation {key key' : String} {ref ref' : Ref} (hKey : key = key')
    (h : ref.thing.alike ref'.thing = true) :
    (Value.raw (.object [("object", ref.json), ("key", .string key)])).same
      (.raw (.object [("object", ref'.json), ("key", .string key')])) = true := by
  subst hKey
  simp only [Ref.thing, Json.alike, Json.bothNaN, Json.isNaN, Bool.false_and, Bool.false_or, Json.same,
    Json.sameParts, Bool.and_true, Bool.and_eq_true] at h
  simp [Value.same, Ref.json, Json.same, Json.sameFields, Assoc.get?_cons, Json.sameScalar, h]

/-- Of two constraints that join the first one, each agrees with the other when they are alike. -/
theorem agrees_of_joinsFirst (hs : AllSendable constraints) (hcMem : c ∈ constraints)
    (hdMem : d ∈ constraints) (hSlot : c.slot = d.slot) (hc : JoinsFirst constraints c)
    (hd : JoinsFirst constraints d) (hSteady : c.Steady) (hAlike : c.Alike d) : c.Agrees d := by
  rcases hAlike with rfl | hSame
  · exact hSteady.agrees
  have hSends := sendable_of_mem hs hcMem
  have hSends' := sendable_of_mem hs hdMem
  -- lists and sub-queries are read as documents, so that it is enough to be equal as those
  have hRaw (hField : isGlobal c.slot.2 = false) {op : String} {j j' : Json}
      (hMeant : c.meant = [(op, .raw j)]) (hMeant' : d.meant = [(op, .raw j')]) : c.Agrees d := by
    rcases sameArguments_of_joinsFirst (legible_of_mem hs) hSlot hField hc hd with rfl | hArguments
    · exact hSteady.agrees
    · refine agrees_of_singleton hMeant hMeant' (hArguments op j j' ?_ ?_)
      · rw [get?_arguments, hMeant, Assoc.get?_cons, if_pos rfl]
        rfl
      · rw [get?_arguments, hMeant', Assoc.get?_cons, if_pos rfl]
        rfl
  cases c <;> cases d <;> simp only [same, Bool.and_eq_true, beq_iff_eq, Bool.false_eq_true] at hSame
  case equalTo => exact agrees_of_singleton rfl rfl hSame.2
  case greaterThan => exact agrees_of_singleton rfl rfl hSame.2
  case lessThan => exact agrees_of_singleton rfl rfl hSame.2
  case present =>
    obtain ⟨rfl, rfl⟩ := hSame
    exact hSteady.agrees
  case matching => exact agrees_of_same_pattern hSends.2 hSends'.2 hSame.2
  case oneOf => exact hRaw rfl rfl rfl
  case noneOf => exact hRaw rfl rfl rfl
  case selected => exact hRaw rfl rfl rfl
  case notSelected => exact hRaw rfl rfl rfl
  case either =>
    cases eq_of_joinsFirst_either hSlot rfl hc hd
    exact hSteady.agrees
  case relatedTo =>
    obtain ⟨ref, rfl, -, -⟩ := hSends
    obtain ⟨ref', rfl, -, -⟩ := hSends'
    exact agrees_of_singleton rfl rfl (same_relation hSame.1 hSame.2)

/-! ### Levels -/

variable {w : Where}

theorem steady_of_states (hLegible : ∀ c ∈ constraints, c.Legible) (h : w.Lays (layout constraints))
    (hc : c ∈ constraints) {level : Option Nat} {found : Where} (hLevel : w.level level = some found)
    (hStates : found.States c) : c.Steady := by
  cases level with
  | none =>
    cases hLevel
    obtain ⟨top, hTop, hAgrees⟩ := (h.states_iff (hLegible c hc)).mp hStates
    exact hAgrees.steady (hLegible c hc) (h.legible hTop)
  | some n =>
    rw [h.level_clause, Option.map_eq_some_iff] at hLevel
    obtain ⟨d, hClause, rfl⟩ := hLevel
    have hd := hLegible d ((holds_layout hLegible).apart d (List.mem_of_getElem? hClause)).1
    exact ((Where.Lays.states_entries (hLegible c hc) hd).mp hStates).2.steady (hLegible c hc) hd

/-- A constraint that joins the first one is stated in no clause, unless it is a disjunction. -/
theorem slot_of_states_clause (hLegible : ∀ c ∈ constraints, c.Legible) (h : w.Lays (layout constraints))
    (hc : c ∈ constraints) (hJoins : JoinsFirst constraints c) {n : Nat} {found : Where}
    (hLevel : w.level (some n) = some found) (hStates : found.States c) : c.slot = ("", "$or") := by
  rw [h.level_clause, Option.map_eq_some_iff] at hLevel
  obtain ⟨d, hClause, rfl⟩ := hLevel
  obtain ⟨hd, first, hFirst, hApart⟩ := (holds_layout hLegible).apart d (List.mem_of_getElem? hClause)
  obtain ⟨hSlot, hAgrees⟩ := (Where.Lays.states_entries (hLegible c hc) (hLegible d hd)).mp hStates
  obtain ⟨first', hFirst', hJoins⟩ := hJoins
  have hFirstSlot : first.slot = c.slot := (mem_of_firstAt hFirst).2.trans hSlot
  rw [← hSlot, hFirst] at hFirst'
  cases hFirst'
  cases hGlobal : isGlobal c.slot.2 with
  | true =>
    cases c with
    | either => rfl
    | relatedTo =>
      -- the clause would be a relation, and relations join
      cases d <;> simp [slot] at hSlot
      cases hApart
    | _ => cases hGlobal
  | false =>
    have hJoinsClause : c.joins d = true := by
      rw [joins_iff (hSlot ▸ hGlobal)]
      exact hAgrees.sameArguments
    rcases hJoins with rfl | hJoins
    · cases hApart.symm.trans hJoinsClause
    · cases hApart.symm.trans (joins_trans (hLegible c hc) hSlot.symm hFirstSlot hJoins hJoinsClause)

theorem exists_level (hs : AllSendable constraints) (h : w.Lays (layout constraints))
    (hSteady : ∀ c ∈ constraints, c.Steady) (hUnmixed : Unmixed constraints) (hc : c ∈ constraints) :
    ∃ level, (∃ found, w.level level = some found ∧ found.States c) ∧
      (level = none ∧ JoinsFirst constraints c ∨
        ∃ n, level = some n ∧ (layout constraints).rest[n]? = some c) := by
  have hLegible := legible_of_mem hs
  have hHolds := holds_layout hLegible
  rcases hHolds.every c hc with hJoins | hRest
  · obtain ⟨top, hTop⟩ := hHolds.filled c hc
    obtain ⟨hMem, hSlot, hTopJoins⟩ := hHolds.top hTop
    have hAlike := hUnmixed c hc top hMem hSlot.symm hJoins hTopJoins
    have hAgrees := agrees_of_joinsFirst hs hc hMem hSlot.symm hJoins hTopJoins (hSteady c hc) hAlike
    have hStates : w.States c := (h.states_iff (hLegible c hc)).mpr ⟨top, hTop, hAgrees⟩
    exact ⟨none, ⟨w, rfl, hStates⟩, .inl ⟨rfl, hJoins⟩⟩
  · obtain ⟨n, hClause⟩ := List.mem_iff_getElem?.mp hRest
    have hStates : c.entries.States c :=
      (Where.Lays.states_entries (hLegible c hc) (hLegible c hc)).mpr ⟨rfl, (hSteady c hc).agrees⟩
    refine ⟨some n, ⟨c.entries, ?_, hStates⟩, .inr ⟨n, rfl, hClause⟩⟩
    rw [h.level_clause, hClause]
    rfl

theorem unmixed_of_keeps (hLegible : ∀ c ∈ constraints, c.Legible) (h : w.Lays (layout constraints))
    (hKeeps : w.Keeps constraints) : Unmixed constraints := by
  obtain ⟨place, hFound, hApart⟩ := hKeeps
  have hTop {e : Constraint} (he : e ∈ constraints) (hJoins : JoinsFirst constraints e)
      (hNot : e.slot ≠ ("", "$or")) : place e = none := by
    obtain ⟨found, hLevel, hStates⟩ := hFound e he
    cases hPlace : place e with
    | none => rfl
    | some n =>
      rw [hPlace] at hLevel
      exact absurd (slot_of_states_clause hLegible h he hJoins hLevel hStates) hNot
  intro c hc c' hc' hSlot hJoins hJoins'
  by_cases hEither : c.slot = ("", "$or")
  · exact .inl (eq_of_joinsFirst_either hSlot hEither hJoins hJoins')
  · refine hApart c hc c' hc' hSlot ?_
    rw [hTop hc hJoins hEither, hTop hc' hJoins' (hSlot ▸ hEither)]

theorem keeps_of_unmixed (hs : AllSendable constraints) (h : w.Lays (layout constraints))
    (hSteady : ∀ c ∈ constraints, c.Steady) (hUnmixed : Unmixed constraints) : w.Keeps constraints := by
  have hLevels (c : Constraint) : ∃ level, c ∈ constraints →
      (∃ found, w.level level = some found ∧ found.States c) ∧
        (level = none ∧ JoinsFirst constraints c ∨
          ∃ n, level = some n ∧ (layout constraints).rest[n]? = some c) := by
    by_cases hc : c ∈ constraints
    · obtain ⟨level, hLevel⟩ := exists_level hs h hSteady hUnmixed hc
      exact ⟨level, fun _ => hLevel⟩
    · exact ⟨none, fun hMem => absurd hMem hc⟩
  choose place hPlace using hLevels
  refine ⟨place, fun c hc => (hPlace c hc).1, fun c hc c' hc' hSlot hEq => ?_⟩
  rcases (hPlace c hc).2 with ⟨hNone, hJoins⟩ | ⟨n, hSome, hClause⟩
  · rcases (hPlace c' hc').2 with ⟨-, hJoins'⟩ | ⟨n', hSome', -⟩
    · exact hUnmixed c hc c' hc' hSlot hJoins hJoins'
    · rw [hEq, hSome'] at hNone
      cases hNone
  · rcases (hPlace c' hc').2 with ⟨hNone', -⟩ | ⟨n', hSome', hClause'⟩
    · rw [hEq, hNone'] at hSome
      cases hSome
    · -- one clause states one constraint
      rw [hEq, hSome'] at hSome
      cases hSome
      exact .inl (Option.some.inj (hClause.symm.trans hClause'))

end Constraint

namespace ConstraintSet

open Constraint Where

/-- Composing returns, and the object keeps every constraint exactly when no argument is NaN and no
constraint takes the place of one that it differs from. -/
theorem keeps_iff_unmixed {s : ConstraintSet} (hs : SetSendable s) :
    ∃ w, s.compose = .ok w ∧
      (w.Keeps s.constraints ↔ (∀ c ∈ s.constraints, c.Steady) ∧ Unmixed s.constraints) := by
  obtain ⟨hCompose, hLays⟩ := compose_eq_body hs
  have hAll : AllSendable s.constraints := by
    cases s
    exact hs
  refine ⟨body s, hCompose, ?_, ?_⟩
  · intro hKeeps
    refine ⟨fun c hc => ?_, unmixed_of_keeps (legible_of_mem hAll) hLays hKeeps⟩
    obtain ⟨place, hFound, -⟩ := hKeeps
    obtain ⟨found, hLevel, hStates⟩ := hFound c hc
    exact steady_of_states (legible_of_mem hAll) hLays hc hLevel hStates
  · rintro ⟨hSteady, hUnmixed⟩
    exact keeps_of_unmixed hAll hLays hSteady hUnmixed

def likedBy (objectId : String) : Constraint :=
  .relatedTo "likes" (Ref.thing ⟨.string "_User", .string objectId⟩)

/-- Two values of one field, and a relation. -/
def oneAndTwo : ConstraintSet :=
  ⟨"Note", [.equalTo "x" (.scalar (.number (.int 1))), .equalTo "x" (.scalar (.number (.int 2))),
    likedBy "u1"]⟩

def likedByTwo : ConstraintSet := ⟨"Note", [likedBy "u1", likedBy "u2"]⟩

theorem sendable_likedBy (objectId : String) : Sendable (likedBy objectId) := ⟨_, rfl, rfl, rfl⟩

theorem keeps_iff_unmixed_oneAndTwo : SetSendable oneAndTwo ∧
    ∃ w, oneAndTwo.compose = .ok w ∧
      (w.Keeps oneAndTwo.constraints ↔
        (∀ c ∈ oneAndTwo.constraints, c.Steady) ∧ Unmixed oneAndTwo.constraints) := by
  have hNumber (i : Int) : Sendable (.equalTo "x" (.scalar (.number (.int i)))) :=
    .equalTo isFieldKey_x (Value.readsBack_scalar _) rfl
  have hs : SetSendable oneAndTwo := ⟨hNumber 1, hNumber 2, sendable_likedBy "u1", trivial⟩
  exact ⟨hs, keeps_iff_unmixed hs⟩

/-- The later relation takes the place of the earlier one, which is found nowhere. -/
theorem not_keeps_likedByTwo :
    SetSendable likedByTwo ∧ ∃ w, likedByTwo.compose = .ok w ∧ ¬ w.Keeps likedByTwo.constraints := by
  refine ⟨⟨sendable_likedBy "u1", sendable_likedBy "u2", trivial⟩, _, rfl, ?_⟩
  rintro ⟨place, hFound, -⟩
  obtain ⟨found, hLevel, hStates⟩ := hFound (likedBy "u1") List.mem_cons_self
  cases hPlace : place (likedBy "u1") with
  | none =>
    rw [hPlace] at hLevel
    cases hLevel
    obtain ⟨j, v, hCell, hDecode, hSame⟩ := hStates "$relatedTo" _ rfl
    cases hCell
    cases hDecode
    exact absurd hSame (by decide +kernel)
  | some n =>
    rw [hPlace] at hLevel
    cases hLevel

end ConstraintSet

end RecordCache
