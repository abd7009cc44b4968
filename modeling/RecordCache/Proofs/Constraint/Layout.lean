import RecordCache.Proofs.Constraint.Arguments

/-!
# How a set is laid out

`Where.Lays` relates a composed object to the arrangement of a set: each of its cells holds an argument of
the constraint in that place, and the clauses of `$and` are the other constraints in turn. Composing one
more constraint, of whatever kind, keeps it.
-/

namespace RecordCache

namespace Value

theorem readsBack_raw {j : Json} (hj : j.isDocument = true) (h : decode j = .ok (.raw j)) :
    (raw j).ReadsBack :=
  ⟨⟨j, hj, h⟩, rfl⟩

theorem readsBack_items {items : List Json} (h : ∀ j ∈ items, j.isDocument = true) :
    (raw (.array items)).ReadsBack :=
  readsBack_raw ((Json.isDocument_array items).mpr h) rfl

end Value

namespace Constraint

/-- The entries of the clause that a constraint becomes. -/
def entries (c : Constraint) : Where :=
  if isGlobal c.slot.2 then c.arguments else [(c.slot.1, .object c.arguments)]

end Constraint

namespace Where

open Constraint

/-- What the object says by an operator, in the object itself or on a key. -/
def cell (w : Where) (key op : String) : Option Json :=
  if isGlobal op then w.get? op else (w.conditionOn key).get? op

theorem isFieldKey_empty : isFieldKey "" = true := by decide +kernel

theorem ne_of_isGlobal {key op : String} (hKey : isFieldKey key = true) (hGlobal : isGlobal op = true) :
    key ≠ op := by
  rintro rfl
  simp only [isGlobal, Bool.or_eq_true, beq_iff_eq] at hGlobal
  rcases hGlobal with rfl | rfl <;> exact absurd hKey (by decide +kernel)

theorem cell_set_condition {key : String} (hKey : isFieldKey key = true) (w : Where) (condition : Json)
    (key' op : String) :
    cell (w.set key condition) key' op =
      if key = key' ∧ isGlobal op = false then Assoc.get? (operators condition) op else w.cell key' op := by
  rw [cell, cell]
  cases hGlobal : isGlobal op with
  | true => simp [ne_of_isGlobal hKey hGlobal]
  | false =>
    rw [conditionOn_set]
    by_cases hEq : key = key' <;> simp [hEq]

theorem cell_set_global {op : String} (hGlobal : isGlobal op = true) (w : Where) (j : Json) {key' : String}
    (hKey' : isFieldKey key' = true) (op' : String) :
    cell (w.set op j) key' op' = if op = op' then some j else w.cell key' op' := by
  rw [cell, cell, conditionOn_set, if_neg (ne_of_isGlobal hKey' hGlobal).symm, Assoc.get?_set]
  by_cases hEq : op = op'
  · subst hEq
    rw [if_pos hGlobal, if_pos rfl, if_pos rfl]
  · rw [if_neg hEq, if_neg hEq]

theorem isDocument_set {w : Where} (h : (Json.object w).isDocument = true) (key : String) {j : Json}
    (hj : j.isDocument = true) : (Json.object (w.set key j)).isDocument = true := by
  rw [Json.isDocument_object] at h ⊢
  refine ⟨Assoc.nodup_keys_set h.1 key j, fun e he => ?_⟩
  rcases Assoc.mem_set he with hMem | rfl
  · exact h.2 e hMem
  · exact hj

theorem nodup_operators {j : Json} (hj : j.isDocument = true) : (Assoc.keys (operators j)).Nodup := by
  rw [operators.eq_def]
  split
  · exact ((Json.isDocument_object _).mp hj).1
  · exact List.nodup_cons.mpr ⟨List.not_mem_nil, List.nodup_nil⟩

theorem isDocument_conditionOn {w : Where} (h : (Json.object w).isDocument = true) (key : String) :
    (Json.object (w.conditionOn key)).isDocument = true := by
  rw [conditionOn]
  cases hGet : w.get? key with
  | none => rfl
  | some j =>
    have hj := ((Json.isDocument_object w).mp h).2 _ (Assoc.mem_of_get? hGet)
    rw [Json.isDocument_object]
    exact ⟨nodup_operators hj, fun e he => Shows.isDocument_operators hj he⟩

/-- The object has a place for each constraint of the arrangement. -/
structure Lays (w : Where) (a : Arranged) : Prop where
  isDocument : (Json.object w).isDocument = true
  valid : a.Valid
  legible : ∀ {slot c}, a.tops.get? slot = some c → c.Legible
  cell : ∀ {key op}, isFieldKey key = true → (isGlobal op = true → key = "") →
    w.cell key op = a.held key op
  clauses : w.get? clauseKey =
    if a.rest = [] then none else some (.array (a.rest.map fun c => .object c.entries))

namespace Lays

variable {w : Where} {a : Arranged} {c : Constraint}

theorem empty : Lays [] {} where
  isDocument := rfl
  valid := ⟨List.nodup_nil, nofun⟩
  legible := nofun
  cell := by
    intro key op _ _
    rw [Where.cell]
    split <;> rfl
  clauses := rfl

theorem setTop (h : Lays w a) (hc : c.Legible) {key : String} {j : Json} (hj : j.isDocument = true)
    (hAnd : key ≠ clauseKey)
    (hCell : ∀ {key' op}, isFieldKey key' = true → (isGlobal op = true → key' = "") →
      Where.cell (w.set key j) key' op =
        if c.slot = (key', family op) then Assoc.get? c.arguments op else w.cell key' op) :
    Lays (w.set key j) { a with tops := a.tops.set c.slot c } where
  isDocument := isDocument_set h.isDocument key hj
  valid := Arranged.valid_set h.valid c
  legible := by
    intro slot d hTop
    rw [Assoc.get?_set] at hTop
    split at hTop
    · cases hTop
      exact hc
    · exact h.legible hTop
  cell := by
    intro key' op hKey' hGlobal
    rw [hCell hKey' hGlobal, Arranged.held, Assoc.get?_set]
    split
    · rfl
    · exact h.cell hKey' hGlobal
  clauses := by
    rw [Assoc.get?_set, if_neg hAnd]
    exact h.clauses

theorem isDocument_entries (hc : c.Legible) : (Json.object c.entries).isDocument = true := by
  rw [entries]
  split
  · exact hc.isDocument_arguments
  · rw [Json.isDocument_object]
    exact ⟨List.nodup_cons.mpr ⟨List.not_mem_nil, List.nodup_nil⟩,
      fun e he => List.mem_singleton.mp he ▸ hc.isDocument_arguments⟩

theorem addClause (h : Lays w a) (hc : c.Legible) :
    ∃ w', Yields (w.addClause (.object c.entries)) w' ∧ Lays w' { a with rest := a.rest ++ [c] } := by
  have hYields : Yields (w.addClause (.object c.entries))
      (w.set clauseKey (.array ((a.rest ++ [c]).map fun c => .object c.entries))) := by
    rw [Where.addClause, h.clauses, List.map_append]
    by_cases hRest : a.rest = []
    · rw [if_pos hRest, hRest]
      exact .pure _
    · rw [if_neg hRest]
      exact .pure _
  have hDocuments : (Json.array ((a.rest ++ [c]).map fun c => .object c.entries)).isDocument = true := by
    rw [Json.isDocument_array, List.map_append]
    intro j hj
    rcases List.mem_append.mp hj with hMem | hMem
    · have hBefore := h.clauses
      rw [if_neg (fun hNil => by rw [hNil] at hMem; cases hMem)] at hBefore
      have hArray := ((Json.isDocument_object w).mp h.isDocument).2 _ (Assoc.mem_of_get? hBefore)
      exact (Json.isDocument_array _).mp hArray j hMem
    · rw [List.map_singleton, List.mem_singleton] at hMem
      exact hMem ▸ isDocument_entries hc
  refine ⟨_, hYields, {
    isDocument := isDocument_set h.isDocument _ hDocuments
    valid := ⟨h.valid.nodup, h.valid.slot_eq⟩
    legible := h.legible
    cell := ?_
    clauses := ?_ }⟩
  · intro key op hKey hGlobal
    have hHeld : Arranged.held { a with rest := a.rest ++ [c] } key op = a.held key op := rfl
    have hKeyAnd : clauseKey ≠ key := (ne_of_isFieldKey hKey).1.symm
    have hOpAnd : isGlobal op = true → clauseKey ≠ op := by
      rintro hIsGlobal rfl
      cases hIsGlobal
    rw [hHeld, ← h.cell hKey hGlobal, Where.cell, Where.cell, conditionOn_set, if_neg hKeyAnd,
      Assoc.get?_set]
    split
    · next hIsGlobal => rw [if_neg (hOpAnd hIsGlobal)]
    · rfl
  · rw [Assoc.get?_set, if_pos rfl, if_neg (List.append_ne_nil_of_right_ne_nil _ (List.cons_ne_nil _ _))]

/-! ### Conditions -/

theorem conditionOn_eq (h : Lays w a) {key : String} (hKey : isFieldKey key = true) {op : String}
    (hOp : isGlobal op = false) : Assoc.get? (w.conditionOn key) op = a.held key op := by
  have hCell : w.cell key op = Assoc.get? (w.conditionOn key) op := by
    rw [Where.cell, hOp]
    rfl
  rw [← hCell, h.cell hKey fun hGlobal => absurd hGlobal (by rw [hOp]; exact Bool.false_ne_true)]

theorem startsWith_conditionOn (h : Lays w a) {key : String} (hKey : isFieldKey key = true)
    {e : String × Json} (he : e ∈ w.conditionOn key) : e.1.startsWith "$" = true := by
  cases hOp : isGlobal e.1 with
  | true =>
    simp only [isGlobal, Bool.or_eq_true, beq_iff_eq] at hOp
    rcases hOp with hOp | hOp <;> rw [hOp] <;> decide +kernel
  | false =>
    have hOn := (Json.isDocument_object _).mp (isDocument_conditionOn h.isDocument key)
    have hGet := Assoc.get?_of_mem hOn.1 he
    rw [h.conditionOn_eq hKey hOp, Arranged.held] at hGet
    obtain ⟨top, -, hArgument⟩ := Option.bind_eq_some_iff.mp hGet
    exact startsWith_arguments (Assoc.mem_of_get? hArgument)

/-- Operators merged into those of the key take their place, and leave the others. -/
theorem setOperators (h : Lays w a) (hc : c.Legible) (hField : isGlobal c.slot.2 = false) {condition : Json}
    (hj : condition.isDocument = true) (hGet : ∀ op, Assoc.get? (operators condition) op =
      (Assoc.get? c.arguments op).or (Assoc.get? (w.conditionOn c.slot.1) op)) :
    Lays (w.set c.slot.1 condition) { a with tops := a.tops.set c.slot c } := by
  refine h.setTop hc hj (ne_of_isFieldKey hc.isFieldKey).1 ?_
  intro key' op hKey' _
  rw [cell_set_condition hc.isFieldKey]
  by_cases hHere : c.slot.1 = key' ∧ isGlobal op = false
  · obtain ⟨rfl, hOp⟩ := hHere
    rw [if_pos ⟨rfl, hOp⟩, hGet]
    by_cases hFamily : family op = c.slot.2
    · have hSlot : c.slot = (c.slot.1, family op) := Prod.ext rfl hFamily.symm
      obtain ⟨j, hArgument⟩ := Option.isSome_iff_exists.mp ((isSome_get?_arguments c op).mpr hFamily)
      rw [if_pos hSlot, hArgument]
      rfl
    · rw [if_neg fun hSlot => hFamily (congrArg Prod.snd hSlot).symm, get?_arguments_eq_none hFamily,
        Option.none_or, Where.cell, hOp]
      rfl
  · rw [if_neg hHere, if_neg]
    intro hSlot
    refine hHere ⟨congrArg Prod.fst hSlot, ?_⟩
    have hFamily : family op = c.slot.2 := (congrArg Prod.snd hSlot).symm
    rw [← isGlobal_family, hFamily, hField]

/-- The operators on the key clash with the constraint when the one in its place is not joined. -/
theorem clash_eq (h : Lays w a) (hc : c.Legible) (hField : isGlobal c.slot.2 = false) :
    clash [] (w.conditionOn c.slot.1) c.arguments = !(a.tops.get? c.slot).all (·.joins c) := by
  have hGet : ∀ e ∈ c.arguments, Assoc.get? (w.conditionOn c.slot.1) e.1 =
      (a.tops.get? c.slot).bind fun top => Assoc.get? top.arguments e.1 := by
    intro e he
    have hFamily : family e.1 = c.slot.2 := by
      rw [← isSome_get?_arguments, Assoc.get?_of_mem (nodup_arguments c) he]
      rfl
    rw [h.conditionOn_eq hc.isFieldKey (by rw [← isGlobal_family, hFamily, hField]), Arranged.held, hFamily]
  cases hTop : a.tops.get? c.slot with
  | none =>
    rw [clash_congr [] fun e he => show _ = Assoc.get? [] e.1 by rw [hGet e he, hTop]; rfl]
    exact List.any_eq_false.mpr fun e _ => Bool.false_ne_true
  | some top =>
    rw [clash_congr [] fun e he => show _ = Assoc.get? top.arguments e.1 by rw [hGet e he, hTop]; rfl,
      Bool.eq_iff_iff, (h.legible hTop).clash_arguments hc, Option.all_some, Bool.not_eq_true',
      ← joins_iff hField, Bool.not_eq_true]

theorem mergeOperators (h : Lays w a) (hc : c.Legible) (hField : isGlobal c.slot.2 = false) :
    Lays (w.set c.slot.1 (.object ((w.conditionOn c.slot.1).merge c.arguments)))
      { a with tops := a.tops.set c.slot c } := by
  have hOn := (Json.isDocument_object _).mp (isDocument_conditionOn h.isDocument c.slot.1)
  have hNew := (Json.isDocument_object _).mp hc.isDocument_arguments
  have hGet (op : String) := Assoc.get?_merge (w.conditionOn c.slot.1) hNew.1 op
  have hSome : (w.conditionOn c.slot.1).merge c.arguments ≠ [] := by
    intro hNil
    obtain ⟨j, hArgument⟩ := Option.isSome_iff_exists.mp ((isSome_get?_arguments c _).mpr (family_slot c))
    have hFound := hGet c.slot.2
    rw [hNil, hArgument] at hFound
    cases hFound
  refine h.setOperators hc hField ?_ fun op => ?_
  · rw [Json.isDocument_object]
    exact ⟨Assoc.nodup_keys_merge hOn.1 _, fun e he => (Assoc.mem_merge he).elim (hOn.2 e) (hNew.2 e)⟩
  · rw [operators_object hSome fun e he =>
      (Assoc.mem_merge he).elim (h.startsWith_conditionOn hc.isFieldKey) startsWith_arguments, hGet]

theorem setCondition (h : Lays w a) (hc : c.Legible) (hField : isGlobal c.slot.2 = false) {condition : Json}
    (hj : condition.isDocument = true) (hOperators : operators condition = c.arguments) :
    ∃ w', Yields (w.setCondition c.slot.1 condition) w' ∧ Lays w' (a.place c) := by
  have hClash := h.clash_eq hc hField
  rw [Arranged.place]
  cases hGet : w.get? c.slot.1 with
  | none =>
    have hOn : w.conditionOn c.slot.1 = [] := by rw [conditionOn, hGet]; rfl
    have hNone : clash [] [] c.arguments = false := List.any_eq_false.mpr fun e _ => Bool.false_ne_true
    rw [hOn, hNone, eq_comm, Bool.not_eq_false'] at hClash
    rw [if_pos hClash]
    refine ⟨_, yields_setCondition_first hGet _, h.setOperators hc hField hj fun op => ?_⟩
    rw [hOperators, hOn, Assoc.get?_nil, Option.or_none]
  | some existing =>
    have hOn : w.conditionOn c.slot.1 = operators existing := by rw [conditionOn, hGet]; rfl
    rw [hOn] at hClash
    cases hJoins : (a.tops.get? c.slot).all (·.joins c) with
    | true =>
      rw [hJoins] at hClash
      refine ⟨_, yields_setCondition_merge hGet hOperators hClash, ?_⟩
      rw [← hOn]
      exact h.mergeOperators hc hField
    | false =>
      -- one key cannot have the operator twice
      obtain ⟨w', hAdd, hLays⟩ := h.addClause hc
      rw [hJoins] at hClash
      rw [entries, hField] at hAdd
      rw [if_neg Bool.false_ne_true]
      exact ⟨w', yields_setCondition_clause hGet hOperators hClash hAdd, hLays⟩

/-- A sub-query is a condition on the key, with the object of its inner set. -/
theorem setSubQuery {matchKey : String} {inner : Conjunction Constraint} (h : Lays w a) (hc : c.Legible)
    (hField : isGlobal c.slot.2 = false) (hInner : Yields (composeSet inner) (body inner))
    (hArguments : c.arguments = [(c.slot.2, subQuery matchKey inner.className (body inner))]) :
    ∃ w', Yields (do
        w.setOperator c.slot.1 c.slot.2 (subQuery matchKey inner.className (← composeSet inner))) w' ∧
      Lays w' (a.place c) := by
  obtain ⟨w', hYields, hLays⟩ := h.setCondition hc hField hc.isDocument_arguments (operators_arguments c)
  rw [hArguments] at hYields
  exact ⟨w', hInner.bind hYields, hLays⟩

/-! ### Disjunctions and relations -/

theorem setGlobal (h : Lays w a) (hc : c.Legible) {op : String} {j : Json} (hGlobal : isGlobal op = true)
    (hSlot : c.slot = ("", op)) (hArguments : c.arguments = [(op, j)]) :
    Lays (w.set op j) { a with tops := a.tops.set c.slot c } := by
  have hGet : Assoc.get? c.arguments op = some j := by
    rw [hArguments, Assoc.get?_cons, if_pos rfl]
  have hAnd : op ≠ clauseKey := by
    rintro rfl
    cases hGlobal
  have hFamily : family op = op := by
    have hOf := family_slot c
    rwa [hSlot] at hOf
  refine h.setTop hc (hc.isDocument_argument hGet) hAnd ?_
  intro key' op' hKey' hKey
  rw [cell_set_global hGlobal w j hKey', hSlot, hArguments, Assoc.get?_cons]
  by_cases hOp : op = op'
  · subst hOp
    rw [if_pos rfl, hKey hGlobal, hFamily, if_pos rfl, if_pos rfl]
  · rw [if_neg hOp, if_neg]
    intro hSame
    exact hOp (eq_of_family_isGlobal hGlobal (congrArg Prod.snd hSame).symm).symm

theorem contains_alternatives (h : Lays w a) :
    Assoc.contains w "$or" = (a.tops.get? ("", "$or")).isSome := by
  have hCell : w.cell "" "$or" = a.held "" "$or" := h.cell isFieldKey_empty fun _ => rfl
  have hFamily : family "$or" = "$or" := by decide
  rw [Assoc.contains, show w.get? "$or" = a.held "" "$or" from hCell, Arranged.held, hFamily]
  cases hTop : a.tops.get? ("", "$or") with
  | none => rfl
  | some top =>
    refine (isSome_get?_arguments top "$or").mpr ?_
    rw [h.valid.slot_eq hTop, hFamily]

theorem compose_either {left right : Conjunction Constraint} (h : Lays w a)
    (hLeft : Yields (composeSet left) (body left)) (hRight : Yields (composeSet right) (body right))
    (hc : (Constraint.either left right).Legible) :
    ∃ w', Yields (compose (.either left right) w) w' ∧ Lays w' (a.place (.either left right)) := by
  have hSlot : (Constraint.either left right).slot = ("", "$or") := rfl
  have hContains := h.contains_alternatives
  rw [Arranged.place, hSlot]
  cases hTop : a.tops.get? ("", "$or") with
  | none =>
    rw [hTop, Option.isSome_none] at hContains
    exact ⟨_, yields_either_first hLeft hRight hContains, h.setGlobal hc rfl rfl rfl⟩
  | some top =>
    rw [hTop, Option.isSome_some] at hContains
    obtain ⟨w', hAdd, hLays⟩ := h.addClause hc
    exact ⟨w', yields_either_clause hLeft hRight hContains hAdd, hLays⟩

theorem compose_relatedTo {key : String} {owner j : Json} (h : Lays w a) (hOwner : ownerJson owner = .ok j)
    (hc : (Constraint.relatedTo key owner).Legible) :
    ∃ w', Yields (compose (.relatedTo key owner) w) w' ∧ Lays w' (a.place (.relatedTo key owner)) := by
  have hJoins (old : Option Constraint) : (old.all fun c => c.joins (.relatedTo key owner)) = true := by
    cases old <;> rfl
  rw [Arranged.place, if_pos (hJoins _)]
  refine ⟨w.set "$relatedTo" (.object [("object", j), ("key", .string key)]), ?_,
    h.setGlobal hc rfl rfl ?_⟩
  · rw [compose, hOwner]
    exact .pure _
  · rw [arguments, meant, hOwner]
    rfl

end Lays

end Where

/-! ### Composing -/

namespace Constraint

open Where

mutual

/-- Conditions whose arguments read back, patterns that are texts, relations of an object, and what is made
of sets of those. -/
def Sendable : Constraint → Prop
  | .matching key p => Where.isFieldKey key = true ∧ ∃ text, p.source = .string text
  | .either left right => SetSendable left ∧ SetSendable right
  | .relatedTo _ owner =>
    ∃ ref : Ref, owner = ref.thing ∧ ref.className.isDocument = true ∧ ref.objectId.isDocument = true
  | .selected key _ inner => Where.isFieldKey key = true ∧ SetSendable inner
  | .notSelected key _ inner => Where.isFieldKey key = true ∧ SetSendable inner
  | c => c.IsCondition

def SetSendable : Conjunction Constraint → Prop
  | ⟨_, constraints⟩ => AllSendable constraints

def AllSendable : List Constraint → Prop
  | [] => True
  | c :: rest => Sendable c ∧ AllSendable rest

end

theorem ownerJson_thing (ref : Ref) : ownerJson ref.thing = .ok ref.json := rfl

theorem legible_matching {key : String} (hKey : Where.isFieldKey key = true) (p : Pattern) :
    (matching key p).Legible where
  isFieldKey := hKey
  readsBack := by
    intro e he
    rcases List.mem_cons.mp he with rfl | hMem
    · exact Value.readsBack_scalar _
    · exact List.mem_singleton.mp hMem ▸ Value.readsBack_scalar _

theorem arguments_matching {p : Pattern} {text : String} (h : p.source = .string text) (key : String) :
    (matching key p).arguments = [("$regex", p.source), ("$options", .string p.optionLetters)] := by
  rw [arguments, meant, h]
  rfl

theorem legible_of_singleton {c : Constraint} {op : String} {v : Value} (hMeant : c.meant = [(op, v)])
    (hKey : Where.isFieldKey c.slot.1 = true) (hv : v.ReadsBack) : c.Legible where
  isFieldKey := hKey
  readsBack := by
    intro e he
    rw [hMeant, List.mem_singleton] at he
    exact he ▸ hv

theorem readsBack_values {values : List Value} (h : ∀ v ∈ values, v.ReadsBack) :
    (Value.raw (.array (values.map Value.json))).ReadsBack := by
  refine Value.readsBack_items fun j hj => ?_
  obtain ⟨v, hv, rfl⟩ := List.mem_map.mp hj
  exact (h v hv).1.isDocument_json

theorem IsCondition.legible {c : Constraint} (h : c.IsCondition) : c.Legible := by
  cases h with
  | equalTo hKey hValue => exact legible_of_singleton rfl hKey hValue
  | greaterThan hKey hValue => exact legible_of_singleton rfl hKey hValue
  | lessThan hKey hValue => exact legible_of_singleton rfl hKey hValue
  | present hKey => exact legible_of_singleton rfl hKey (Value.readsBack_scalar _)
  | matching hKey => exact legible_matching hKey _
  | oneOf hKey hValues => exact legible_of_singleton rfl hKey (readsBack_values hValues)
  | noneOf hKey hValues => exact legible_of_singleton rfl hKey (readsBack_values hValues)

theorem IsCondition.arguments_eq {c : Constraint} (h : c.IsCondition) : c.arguments = c.operation := by
  cases h with
  | matching _ hPattern =>
    obtain ⟨text, _, -, hCompile⟩ := hPattern
    exact arguments_matching (Pattern.ofChars_eq_ok.mp hCompile).1 _
  | _ => rfl

theorem readsBack_sides {left right : Where} (hLeft : (Json.object left).isDocument = true)
    (hRight : (Json.object right).isDocument = true) :
    (Value.raw (.array [.object left, .object right])).ReadsBack := by
  refine Value.readsBack_items fun j hj => ?_
  rcases List.mem_cons.mp hj with rfl | hMem
  · exact hLeft
  · exact List.mem_singleton.mp hMem ▸ hRight

theorem readsBack_relation {ref : Ref} (hClass : ref.className.isDocument = true)
    (hId : ref.objectId.isDocument = true) (key : String) :
    (Value.raw (.object [("object", ref.json), ("key", .string key)])).ReadsBack := by
  refine Value.readsBack_raw ?_ rfl
  simp [Ref.json, Json.isDocument, Json.fieldsDocuments, Assoc.keys, hClass, hId]

theorem readsBack_subQuery {inner : Where} (h : (Json.object inner).isDocument = true)
    (matchKey className : String) : (Value.raw (subQuery matchKey className inner)).ReadsBack := by
  refine Value.readsBack_raw ?_ rfl
  simp [subQuery, Json.isDocument, Json.fieldsDocuments, Assoc.keys] at h ⊢
  exact h

theorem IsCondition.isGlobal_slot {c : Constraint} (h : c.IsCondition) : isGlobal c.slot.2 = false := by
  cases h <;> rfl

theorem compose_condition_lays {c : Constraint} (hc : c.IsCondition) :
    c.Legible ∧ ∀ {w : Where} {a : Arranged}, w.Lays a →
      ∃ w', Yields (compose c w) w' ∧ w'.Lays (a.place c) := by
  refine ⟨hc.legible, fun {w a} h => ?_⟩
  obtain ⟨condition, hEq, hDocument, hOperators⟩ := hc.compose_eq w
  rw [hEq]
  exact h.setCondition hc.legible hc.isGlobal_slot hDocument (hOperators.trans hc.arguments_eq.symm)

mutual

theorem compose_lays : ∀ {c : Constraint}, Sendable c →
    c.Legible ∧ ∀ {w : Where} {a : Arranged}, w.Lays a →
      ∃ w', Yields (compose c w) w' ∧ w'.Lays (a.place c)
  | .either left right, hc => by
    obtain ⟨hLeft, hLeftLays⟩ := composeSet_lays hc.1
    obtain ⟨hRight, hRightLays⟩ := composeSet_lays hc.2
    have hLegible : (either left right).Legible :=
      legible_of_singleton rfl isFieldKey_empty (readsBack_sides hLeftLays.isDocument hRightLays.isDocument)
    exact ⟨hLegible, fun h => h.compose_either hLeft hRight hLegible⟩
  | .relatedTo key owner, hc => by
    obtain ⟨ref, rfl, hClass, hId⟩ := hc
    have hLegible : (relatedTo key ref.thing).Legible :=
      legible_of_singleton rfl isFieldKey_empty (readsBack_relation hClass hId key)
    exact ⟨hLegible, fun h => h.compose_relatedTo (ownerJson_thing ref) hLegible⟩
  | .selected key matchKey inner, hc => by
    obtain ⟨hInner, hLays⟩ := composeSet_lays hc.2
    have hLegible : (selected key matchKey inner).Legible :=
      legible_of_singleton rfl hc.1 (readsBack_subQuery hLays.isDocument _ _)
    exact ⟨hLegible, fun h => h.setSubQuery hLegible rfl hInner rfl⟩
  | .notSelected key matchKey inner, hc => by
    obtain ⟨hInner, hLays⟩ := composeSet_lays hc.2
    have hLegible : (notSelected key matchKey inner).Legible :=
      legible_of_singleton rfl hc.1 (readsBack_subQuery hLays.isDocument _ _)
    exact ⟨hLegible, fun h => h.setSubQuery hLegible rfl hInner rfl⟩
  | .equalTo _ _ _, hc => compose_condition_lays hc
  | .greaterThan _ _, hc => compose_condition_lays hc
  | .lessThan _ _, hc => compose_condition_lays hc
  | .present _ _, hc => compose_condition_lays hc
  | .matching key p, hc => by
    obtain ⟨hKey, text, hSource⟩ := hc
    have hLegible := legible_matching hKey p
    refine ⟨hLegible, fun {w a} h => ?_⟩
    have hSet := h.setCondition hLegible rfl hLegible.isDocument_arguments (operators_arguments _)
    rwa [arguments_matching hSource] at hSet
  | .oneOf _ _, hc => compose_condition_lays hc
  | .noneOf _ _, hc => compose_condition_lays hc

theorem composeSet_lays : ∀ {s : Conjunction Constraint}, SetSendable s →
    Yields (composeSet s) (body s) ∧ (body s).Lays (layout s.constraints)
  | ⟨className, constraints⟩, hs => by
    obtain ⟨w, hAll, hLays⟩ := composeAll_lays hs Lays.empty
    have hYields : Yields (composeSet ⟨className, constraints⟩) w := hAll
    rw [body_eq hYields]
    exact ⟨hYields, hLays⟩

theorem composeAll_lays : ∀ {constraints : List Constraint}, AllSendable constraints →
    ∀ {w : Where} {a : Arranged}, w.Lays a →
      ∃ w', Yields (composeAll constraints w) w' ∧ w'.Lays (constraints.foldl Arranged.place a)
  | [], _, w, _, h => ⟨w, .pure _, h⟩
  | c :: rest, hs, w, a, h => by
    obtain ⟨w₁, hFirst, hLays⟩ := (compose_lays hs.1).2 h
    obtain ⟨w₂, hRest, hEnd⟩ := composeAll_lays hs.2 hLays
    exact ⟨w₂, hFirst.bind hRest, hEnd⟩

end

end Constraint

namespace ConstraintSet

open Constraint

/-- Composing returns, and the object has a place for each constraint. -/
theorem compose_eq_body {s : ConstraintSet} (hs : SetSendable s) :
    s.compose = .ok (body s) ∧ (body s).Lays (layout s.constraints) := by
  obtain ⟨hYields, hLays⟩ := composeSet_lays hs
  exact ⟨compose_eq_ok hYields hLays.isDocument, hLays⟩

end ConstraintSet

end RecordCache
