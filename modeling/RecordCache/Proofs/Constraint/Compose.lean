import RecordCache.Proofs.Constraint.Shows

/-!
# Composing and matching

A `where` object reads as what composing keeps of the set, on every record.
-/

namespace RecordCache

namespace Where

theorem clash_one {op : String} {old new : Json} (hOld : old.isDocument = true)
    (hNew : new.isDocument = true) :
    clash [] [(op, old)] [(op, new)] = !Json.sameParts [old] [new] := by
  simp [clash, Assoc.get?_cons, Json.sameParts, ClauseLists.read_document [] hOld,
    ClauseLists.read_document [] hNew]

theorem clash_two {op op' : String} (hNe : op ≠ op') {old new old' new' : Json}
    (hOld : old.isDocument = true)
    (hNew : new.isDocument = true) (hOld' : old'.isDocument = true) (hNew' : new'.isDocument = true) :
    clash [] [(op, old), (op', old')] [(op, new), (op', new')] =
      !Json.sameParts [old, old'] [new, new'] := by
  simp [clash, Assoc.get?_cons, Json.sameParts, hNe, ClauseLists.read_document [] hOld,
    ClauseLists.read_document [] hNew, ClauseLists.read_document [] hOld',
      ClauseLists.read_document [] hNew']

theorem clash_congr (lists : ClauseLists) {old old' new : Fields Json}
    (h : ∀ e ∈ new, old.get? e.1 = old'.get? e.1) : clash lists old new = clash lists old' new := by
  rw [Bool.eq_iff_iff, clash, clash, List.any_eq_true, List.any_eq_true]
  refine exists_congr fun e => and_congr_right fun he => ?_
  dsimp only
  rw [h e he]

section

variable {w w' : Where} {key : String} {existing condition : Json} {new : Fields Json}

theorem yields_setCondition_first (h : w.get? key = none) (condition : Json) :
    Yields (w.setCondition key condition) (w.set key condition) := by
  rw [setCondition, h]
  exact .pure _

theorem yields_setCondition_merge (h : w.get? key = some existing) (hNew : operators condition = new)
    (hNo : clash [] (operators existing) new = false) :
    Yields (w.setCondition key condition) (w.set key (.object ((operators existing).merge new))) := by
  rw [setCondition, h, hNew]
  refine Yields.lists.bind ?_
  rw [hNo]
  exact .pure _

theorem yields_setCondition_clause (h : w.get? key = some existing) (hNew : operators condition = new)
    (hYes : clash [] (operators existing) new = true)
    (hAdd : Yields (w.addClause (.object [(key, .object new)])) w') :
    Yields (w.setCondition key condition) w' := by
  rw [setCondition, h, hNew]
  refine Yields.lists.bind ?_
  rw [hYes]
  exact hAdd

end

end Where

namespace Constraint

section

variable {left right : Conjunction Constraint} {leftWhere rightWhere w : Where}

theorem yields_either_first (hLeft : Yields (composeSet left) leftWhere)
    (hRight : Yields (composeSet right) rightWhere) (h : Assoc.contains w "$or" = false) :
    Yields (compose (.either left right) w)
      (w.set "$or" (.array [.object leftWhere, .object rightWhere])) := by
  rw [compose]
  refine hLeft.bind (hRight.bind ?_)
  rw [h]
  exact .pure _

theorem yields_either_clause (hLeft : Yields (composeSet left) leftWhere)
    (hRight : Yields (composeSet right) rightWhere) (h : Assoc.contains w "$or" = true) {w' : Where}
    (hAdd : Yields (w.addClause
      (.object [("$or", .array [.object leftWhere, .object rightWhere])])) w') :
    Yields (compose (.either left right) w) w' := by
  rw [compose]
  refine hLeft.bind (hRight.bind ?_)
  rw [h]
  exact hAdd

end

end Constraint

namespace Constraint.IsCondition

variable {c c₀ : Constraint}

theorem isDocument_of_mem (h : c.IsCondition) {e : String × Json} (he : e ∈ c.operation) :
    e.2.isDocument = true :=
  ((Json.isDocument_object _).mp h.isDocument_operation).2 e he

theorem clash_operation (h₀ : c₀.IsCondition) (h : c.IsCondition) (hSlot : c₀.slot = c.slot) :
    Where.clash [] c₀.operation c.operation = !c₀.restatedBy c := by
  have hDocuments {e : String × Json} (he : e ∈ c.operation) := h.isDocument_of_mem he
  have hDocuments₀ {e : String × Json} (he : e ∈ c₀.operation) := h₀.isDocument_of_mem he
  cases h₀ <;> cases h <;> simp only [slot, Prod.mk.injEq, String.reduceEq, and_false] at hSlot
  case matching =>
    exact Where.clash_two (by decide) (hDocuments₀ List.mem_cons_self) (hDocuments List.mem_cons_self)
      (hDocuments₀ (List.mem_cons_of_mem _ List.mem_cons_self))
        (hDocuments (List.mem_cons_of_mem _ List.mem_cons_self))
  all_goals exact Where.clash_one (hDocuments₀ List.mem_cons_self) (hDocuments List.mem_cons_self)

end Constraint.IsCondition

namespace Where.Shows

open Constraint

variable {w : Where} {a : Arranged} {c : Constraint}

theorem argument?_slot {op : String} (hOp : family op = c.slot.2) :
    a.argument? c.slot.1 op = (a.tops.get? c.slot).bind fun top => Assoc.get? top.operation op := by
  rw [Arranged.argument?, hOp]

theorem get?_operation_eq_none (hc : c.IsCondition) {op : String} (hOp : family op ≠ c.slot.2) :
    Assoc.get? c.operation op = none := by
  cases hGet : Assoc.get? c.operation op with
  | none => rfl
  | some j => exact absurd (hc.family_eq hGet) hOp

theorem setFirst (h : Shows w a) (hc : c.IsCondition) (hNone : w.get? c.slot.1 = none) {condition : Json}
    (hDocument : condition.isDocument = true) (hOperators : operators condition = c.operation) :
    Shows (w.set c.slot.1 condition) (a.add c) := by
  have hArgument (op : String) : a.argument? c.slot.1 op = none := by
    rw [← h.condition hc.isFieldKey, conditionOn, hNone]
    rfl
  have hTop : a.tops.get? c.slot = none := by
    cases hTop : a.tops.get? c.slot with
    | none => rfl
    | some top =>
      -- it would have left an operator on the key
      have hCondition := h.isCondition hTop hc.slot_ne
      obtain ⟨j, hGet, -⟩ := hCondition.get?_slot
      have hFamily := hCondition.family_eq hGet
      rw [h.valid.slot_eq hTop] at hGet hFamily
      have hNone := hArgument c.slot.2
      rw [argument?_slot hFamily, hTop, Option.bind_some, hGet] at hNone
      cases hNone
  rw [Arranged.add, hTop]
  refine h.setTop hc hDocument (hOperators ▸ hc.nodup_keys) fun op => ?_
  rw [hOperators]
  split
  · rfl
  · next hFamily => rw [get?_operation_eq_none hc hFamily, hArgument]

theorem argument?_eq_none (h : Shows w a) (hc : c.IsCondition) {op : String} (hOp : family op = c.slot.2)
    (hNone : Assoc.get? c.operation op = none) : a.argument? c.slot.1 op = none := by
  rw [argument?_slot hOp]
  cases hTop : a.tops.get? c.slot with
  | none => rfl
  | some top =>
    have hSame := (h.isCondition hTop hc.slot_ne).isSome_get?_congr hc (h.valid.slot_eq hTop) op
    rw [hNone, Option.isSome_none, Option.isSome_eq_false_iff, Option.isNone_iff_eq_none] at hSame
    exact hSame

theorem isDocument_operators {j : Json} (hj : j.isDocument = true) {e : String × Json}
    (he : e ∈ operators j) :
    e.2.isDocument = true := by
  rw [operators.eq_def] at he
  split at he
  · exact ((Json.isDocument_object _).mp hj).2 e he
  · rw [List.mem_singleton.mp he]
    exact hj

theorem setMerged (h : Shows w a) (hc : c.IsCondition) {existing : Json}
    (hSome : w.get? c.slot.1 = some existing) :
    Shows (w.set c.slot.1 (.object ((operators existing).merge c.operation)))
      { a with tops := a.tops.set c.slot c } := by
  have hOn : w.conditionOn c.slot.1 = operators existing := by
    rw [conditionOn, hSome]
    rfl
  have hExisting : existing.isDocument = true := h.isDocument _ (Assoc.mem_of_get? hSome)
  have hNodup := Assoc.nodup_keys_merge (hOn ▸ h.conditionNodup hc.isFieldKey) c.operation
  have hGet (op : String) : Assoc.get? ((operators existing).merge c.operation) op =
      (Assoc.get? c.operation op).or (Assoc.get? (operators existing) op) :=
        Assoc.get?_merge _ hc.nodup_keys op
  have hNames : ∀ e ∈ (operators existing).merge c.operation, e.1.startsWith "$" = true := by
    intro e he
    rcases Assoc.mem_merge he with hOld | hNew
    · exact h.startsWith_of_mem hc.isFieldKey (hOn ▸ hOld)
    · exact hc.startsWith_of_get? (Assoc.get?_of_mem hc.nodup_keys hNew)
  have hSomeOperator : (operators existing).merge c.operation ≠ [] := by
    obtain ⟨j, hSlot, -⟩ := hc.get?_slot
    intro hNil
    have hFound := hGet c.slot.2
    rw [hNil, hSlot] at hFound
    cases hFound
  have hOperators := operators_object hSomeOperator hNames
  refine h.setTop hc ?_ (by rwa [hOperators]) fun op => ?_
  · rw [Json.isDocument_object]
    refine ⟨hNodup, fun e he => ?_⟩
    rcases Assoc.mem_merge he with hOld | hNew
    · exact isDocument_operators hExisting hOld
    · exact hc.isDocument_of_mem hNew
  · -- operators of this place are replaced; those of other places on the key stay
    rw [hOperators, hGet, ← hOn, h.condition hc.isFieldKey]
    split
    · next hFamily =>
      cases hNew : Assoc.get? c.operation op with
      | some j => rfl
      | none => rw [h.argument?_eq_none hc hFamily hNew, Option.or_none]
    · next hFamily => rw [get?_operation_eq_none hc hFamily, Option.none_or]

/-- The operators on a key clash with a condition when the one in its place is not restated. -/
theorem clash_eq (h : Shows w a) (hc : c.IsCondition) :
    clash [] (w.conditionOn c.slot.1) c.operation =
      (a.tops.get? c.slot).any fun top => !top.restatedBy c := by
  have hFamily {e : String × Json} (he : e ∈ c.operation) : family e.1 = c.slot.2 :=
    hc.family_eq (Assoc.get?_of_mem hc.nodup_keys he)
  cases hTop : a.tops.get? c.slot with
  | none =>
    have hNone : clash [] (w.conditionOn c.slot.1) c.operation = clash [] [] c.operation := by
      refine clash_congr [] fun e he => ?_
      rw [h.condition hc.isFieldKey, argument?_slot (hFamily he), hTop]
      rfl
    rw [hNone]
    exact List.any_eq_false.mpr fun e _ => Bool.false_ne_true
  | some top =>
    have hSome : clash [] (w.conditionOn c.slot.1) c.operation = clash [] top.operation c.operation := by
      refine clash_congr [] fun e he => ?_
      rw [h.condition hc.isFieldKey, argument?_slot (hFamily he), hTop]
      rfl
    rw [hSome]
    exact (h.isCondition hTop hc.slot_ne).clash_operation hc (h.valid.slot_eq hTop)

theorem says_operation (hc : c.IsCondition) : Says (.object [(c.slot.1, .object c.operation)]) c := by
  intro r
  rw [clauseReads, entriesRead, entriesRead, entryReads_condition r hc.isFieldKey,
    hc.conditionHolds_operation,
    hc.fits_eq, Bool.and_true]

theorem isDocument_clause (hc : c.IsCondition) :
    (Json.object [(c.slot.1, .object c.operation)]).isDocument = true := by
  rw [Json.isDocument_object]
  exact ⟨by simp [Assoc.keys], fun e he => List.mem_singleton.mp he ▸ hc.isDocument_operation⟩

theorem setCondition (h : Shows w a) (hc : c.IsCondition) {condition : Json}
    (hDocument : condition.isDocument = true)
    (hOperators : operators condition = c.operation) :
    ∃ w', Yields (w.setCondition c.slot.1 condition) w' ∧ Shows w' (a.add c) := by
  cases hGet : w.get? c.slot.1 with
  | none => exact ⟨_, yields_setCondition_first hGet _, h.setFirst hc hGet hDocument hOperators⟩
  | some existing =>
    have hOn : w.conditionOn c.slot.1 = operators existing := by
      rw [conditionOn, hGet]
      rfl
    have hClash := h.clash_eq hc
    rw [hOn] at hClash
    rw [Arranged.add]
    cases hTop : a.tops.get? c.slot with
    | none =>
      rw [hTop] at hClash
      exact ⟨_, yields_setCondition_merge hGet hOperators hClash, h.setMerged hc hGet⟩
    | some top =>
      rw [hTop, Option.any_some] at hClash
      cases hRestated : top.restatedBy c with
      | true =>
        -- the arguments are equal as documents, and the later ones are kept
        rw [hRestated] at hClash
        refine ⟨_, yields_setCondition_merge hGet hOperators hClash, ?_⟩
        dsimp only
        rw [if_pos hRestated]
        exact h.setMerged hc hGet
      | false =>
        -- one key cannot have the operator twice
        rw [hRestated] at hClash
        obtain ⟨w', hAdd, hShows⟩ := h.addClause (isDocument_clause hc) (says_operation hc)
        refine ⟨w', yields_setCondition_clause hGet hOperators hClash hAdd, ?_⟩
        dsimp only
        rw [if_neg (by rw [hRestated]; exact Bool.false_ne_true)]
        exact hShows

/-! ### Reading -/

theorem clause_of_forall₂ {clauses : List Json} {rest : List Constraint}
    (h : List.Forall₂ Says clauses rest)
    (r : Record) : allRead r clauses = true ↔ ∀ c ∈ rest, fits r c = true := by
  induction h with
  | nil => exact ⟨fun _ => nofun, fun _ => rfl⟩
  | cons hSays _ ih => rw [allRead, Bool.and_eq_true, ih, hSays r, List.forall_mem_cons]

theorem condition_of_top (h : Shows w a) (hTop : a.tops.get? c.slot = some c) (hc : c.IsCondition) :
    ∃ condition, w.get? c.slot.1 = some condition ∧
      ∀ op j, Assoc.get? c.operation op = some j → Assoc.get? (operators condition) op = some j := by
  have hArgument {op : String} {j : Json} (hOp : Assoc.get? c.operation op = some j) :
      Assoc.get? (w.conditionOn c.slot.1) op = some j := by
    rw [h.condition hc.isFieldKey, argument?_slot (hc.family_eq hOp), hTop]
    exact hOp
  obtain ⟨j, hSlot, -⟩ := hc.get?_slot
  have hFound := hArgument hSlot
  rw [conditionOn] at hFound hArgument
  cases hCondition : w.get? c.slot.1 with
  | none =>
    rw [hCondition] at hFound
    cases hFound
  | some condition =>
    rw [hCondition] at hArgument
    exact ⟨condition, rfl, fun _ _ => hArgument⟩

theorem letters_of_top {ops : Fields Json} (hc : c.IsCondition)
    (hOps : ∀ op j, Assoc.get? c.operation op = some j → Assoc.get? ops op = some j) {op : String} {j : Json}
    (hOp : Assoc.get? c.operation op = some j) (hRegex : op = "$regex") :
    letters ops = letters c.operation := by
  cases hc with
  | matching => rw [letters, letters, hOps "$options" _ rfl]; rfl
  | _ =>
    subst hRegex
    simp [operation, Assoc.get?_cons] at hOp

theorem operatorHolds_of_top (hc : c.IsCondition) {ops : Fields Json}
    (hOps : ∀ op j, Assoc.get? c.operation op = some j → Assoc.get? ops op = some j) {op : String} {j : Json}
    (hOp : Assoc.get? c.operation op = some j) (hOptions : op ≠ "$options") (r : Record) :
    operatorHolds r c.slot.1 (letters ops) op j = isMet r c := by
  rw [operatorHolds, hc.operation?_eq hOp hOptions fun hRegex => letters_of_top hc hOps hOp hRegex,
    beq_false_of_ne hOptions]
  rfl

theorem conditionHolds_of_fits (h : Shows w a) {key : String} (hKey : isFieldKey key = true)
    {condition : Json}
    (hCondition : w.get? key = some condition) {r : Record} (hAll : ∀ c ∈ a.all, fits r c = true) :
    conditionHolds r key condition = true := by
  have hOn : w.conditionOn key = operators condition := by
    rw [conditionOn, hCondition]
    rfl
  rw [conditionHolds, List.all_eq_true]
  rintro ⟨op, j⟩ hMem
  have hGet := Assoc.get?_of_mem (hOn ▸ h.conditionNodup hKey) hMem
  rw [← hOn, h.condition hKey, Arranged.argument?] at hGet
  obtain ⟨top, hTop, hOp⟩ := Option.bind_eq_some_iff.mp hGet
  have hTopCondition := h.isCondition_of_get? hTop hOp
  have hSlot := h.valid.slot_eq hTop
  have hFits := hAll top ((Arranged.mem_all h.valid).mpr (.inl (hSlot.symm ▸ hTop)))
  by_cases hOptions : op = "$options"
  · rw [hOptions]
    rfl
  · obtain ⟨condition', hCondition', hOps⟩ := h.condition_of_top (hSlot.symm ▸ hTop) hTopCondition
    rw [hSlot] at hCondition'
    cases hCondition.symm.trans hCondition'
    have hHolds := operatorHolds_of_top hTopCondition hOps hOp hOptions r
    rw [hSlot] at hHolds
    exact hHolds.trans (hTopCondition.fits_eq r ▸ hFits)

theorem reads_iff (h : Shows w a) (r : Record) : w.reads r = true ↔ ∀ c ∈ a.all, fits r c = true := by
  rw [reads, entriesRead_iff]
  constructor
  · -- each constraint is found where it was put: as alternatives, on its key, or in a clause
    intro hAll c hMem
    rcases (Arranged.mem_all h.valid).mp hMem with hTop | hRest
    · by_cases hSlot : c.slot = ("", "$or")
      · obtain ⟨left, right, hOr, hSays⟩ := h.alternatives (hSlot ▸ hTop)
        have hReads := hAll _ (Assoc.mem_of_get? hOr)
        rw [entryReads_alternatives, anyReads, anyReads, anyReads, Bool.or_false] at hReads
        rw [← hSays r, hReads]
      · have hc := h.isCondition hTop hSlot
        obtain ⟨condition, hCondition, hOps⟩ := h.condition_of_top hTop hc
        obtain ⟨j, hOp, hOptions⟩ := hc.get?_slot
        have hReads := hAll _ (Assoc.mem_of_get? hCondition)
        rw [entryReads_condition r hc.isFieldKey, conditionHolds, List.all_eq_true] at hReads
        have hHolds := hReads _ (Assoc.mem_of_get? (hOps _ _ hOp))
        rw [hc.fits_eq, ← operatorHolds_of_top hc hOps hOp hOptions r]
        exact hHolds
    · rcases h.clauses with ⟨-, hNone⟩ | ⟨clauses, hAnd, hClauses⟩
      · rw [hNone] at hRest
        cases hRest
      · have hReads := hAll _ (Assoc.mem_of_get? hAnd)
        rw [entryReads_clauses] at hReads
        exact (clause_of_forall₂ hClauses r).mp hReads c hRest
  · -- each entry says only what some of the constraints say
    rintro hAll ⟨key, j⟩ hMem
    have hGet := Assoc.get?_of_mem h.nodup hMem
    rcases h.isKey key (Assoc.mem_keys_of_mem hMem) with hKey | rfl | rfl
    · rw [entryReads_condition r hKey]
      exact h.conditionHolds_of_fits hKey hGet hAll
    · rcases h.clauses with ⟨hNone, -⟩ | ⟨clauses, hAnd, hClauses⟩
      · cases hGet.symm.trans hNone
      · cases hGet.symm.trans hAnd
        rw [entryReads_clauses]
        exact (clause_of_forall₂ hClauses r).mpr fun c hc =>
          hAll c ((Arranged.mem_all h.valid).mpr (.inr hc))
    · cases hTop : a.tops.get? ("", "$or") with
      | none => cases hGet.symm.trans (h.noAlternatives hTop)
      | some c =>
        obtain ⟨left, right, hOr, hSays⟩ := h.alternatives hTop
        cases hGet.symm.trans hOr
        have hSlot := h.valid.slot_eq hTop
        rw [entryReads_alternatives, anyReads, anyReads, anyReads, Bool.or_false, hSays]
        exact hAll c ((Arranged.mem_all h.valid).mpr (.inl (hSlot.symm ▸ hTop)))

end Where.Shows

/-! ### Composing -/

namespace Constraint

open Where

theorem operators_of_plain {j : Json} (h : isOperators j = false) : operators j = [("$eq", j)] := by
  rw [operators.eq_def, h]
  cases j <;> rfl

theorem IsCondition.compose_eq {c : Constraint} (hc : c.IsCondition) (w : Where) :
    ∃ condition, compose c w = w.setCondition c.slot.1 condition ∧ condition.isDocument = true ∧
      operators condition = c.operation := by
  have hDocument := hc.isDocument_operation
  have hOperators := hc.operators_operation
  cases hc with
  | equalTo hKey hValue hPlain =>
    -- the value stands on the key by itself
    exact ⟨_, rfl, hValue.1.isDocument_json, operators_of_plain hPlain⟩
  | _ => exact ⟨_, rfl, hDocument, hOperators⟩

theorem compose_condition {c : Constraint} (hc : c.IsCondition) {w : Where} {a : Arranged} (h : w.Shows a) :
    ∃ w', Yields (compose c w) w' ∧ w'.Shows (a.add (kept c)) := by
  obtain ⟨condition, hEq, hDocument, hOperators⟩ := hc.compose_eq w
  rw [hEq, hc.kept_eq]
  exact h.setCondition hc hDocument hOperators

/-- A disjunction takes its place when it is the first one, and else is a clause. -/
theorem compose_either {left right : Conjunction Constraint} {leftWhere rightWhere : Where}
    (hLeft : Yields (composeSet left) leftWhere) (hRight : Yields (composeSet right) rightWhere)
    (hLeftDocument : (Json.object leftWhere).isDocument = true)
    (hRightDocument : (Json.object rightWhere).isDocument = true)
    (hSays : ∀ r, (leftWhere.reads r || rightWhere.reads r) = fits r (kept (.either left right)))
    {w : Where} {a : Arranged} (h : w.Shows a) :
    ∃ w', Yields (compose (.either left right) w) w' ∧ w'.Shows (a.add (kept (.either left right))) := by
  have hSlot : (kept (.either left right)).slot = ("", "$or") := rfl
  have hSides : (Json.array [.object leftWhere, .object rightWhere]).isDocument = true := by
    rw [Json.isDocument_array]
    intro j hj
    rcases List.mem_cons.mp hj with rfl | hMem
    · exact hLeftDocument
    · exact List.mem_singleton.mp hMem ▸ hRightDocument
  rw [Arranged.add, hSlot]
  cases hTop : a.tops.get? ("", "$or") with
  | none =>
    have hContains : Assoc.contains w "$or" = false := by
      rw [Assoc.contains, h.noAlternatives hTop]
      rfl
    exact ⟨_, yields_either_first hLeft hRight hContains,
      h.setAlternatives hSlot hLeftDocument hRightDocument hSays⟩
  | some old =>
    obtain ⟨_, _, hOr, -⟩ := h.alternatives hTop
    have hContains : Assoc.contains w "$or" = true := by
      rw [Assoc.contains, hOr]
      rfl
    have hDocument : (Json.object
      [("$or", .array [.object leftWhere, .object rightWhere])]).isDocument = true := by
      rw [Json.isDocument_object]
      exact ⟨by simp [Assoc.keys], fun e he => List.mem_singleton.mp he ▸ hSides⟩
    have hClause : Says (.object [("$or", .array [.object leftWhere, .object rightWhere])])
        (kept (.either left right)) := by
      intro r
      rw [clauseReads, entriesRead, entriesRead, entryReads_alternatives, Bool.and_true, ← hSays r,
        anyReads, anyReads,
        anyReads, Bool.or_false]
      rfl
    obtain ⟨w', hAdd, hShows⟩ := h.addClause hDocument hClause
    exact ⟨w', yields_either_clause hLeft hRight hContains hAdd, hShows⟩

mutual

theorem compose_shows : ∀ {c : Constraint}, Expressible c → ∀ {w : Where} {a : Arranged}, w.Shows a →
    ∃ w', Yields (compose c w) w' ∧ w'.Shows (a.add (kept c))
  | .either left right, hc, w, a, h => by
    obtain ⟨leftWhere, hLeft, hLeftDocument, hLeftReads⟩ := composeSet_reads hc.1
    obtain ⟨rightWhere, hRight, hRightDocument, hRightReads⟩ := composeSet_reads hc.2
    refine compose_either hLeft hRight hLeftDocument hRightDocument (fun r => ?_) h
    rw [hLeftReads, hRightReads, kept, fits]
  | .equalTo key value own, hc, w, a, h => by
    obtain ⟨rfl, hKey, hValue, hPlain⟩ := hc
    exact compose_condition (.equalTo hKey hValue hPlain) h
  | .greaterThan _ _, hc, _, _, h => compose_condition (.greaterThan hc.1 hc.2) h
  | .lessThan _ _, hc, _, _, h => compose_condition (.lessThan hc.1 hc.2) h
  | .present _ _, hc, _, _, h => compose_condition (.present hc) h
  | .matching _ _, hc, _, _, h => compose_condition (.matching hc.1 hc.2) h
  | .oneOf _ _, hc, _, _, h => compose_condition (.oneOf hc.1 hc.2) h
  | .noneOf _ _, hc, _, _, h => compose_condition (.noneOf hc.1 hc.2) h

theorem composeSet_reads : ∀ {s : Conjunction Constraint}, SetExpressible s →
    ∃ w, Yields (composeSet s) w ∧ (Json.object w).isDocument = true ∧ ∀ r,
    w.reads r = setFits r (keptSet s)
  | ⟨_, constraints⟩, hs => by
    obtain ⟨w, hYields, hShows⟩ := composeAll_shows hs Shows.empty
    refine ⟨w, hYields, (Json.isDocument_object w).mpr ⟨hShows.nodup, hShows.isDocument⟩, fun r => ?_⟩
    rw [Bool.eq_iff_iff, hShows.reads_iff r, keptSet, setFits, allFit_iff]
    rfl

theorem composeAll_shows : ∀ {constraints : List Constraint}, AllExpressible constraints →
    ∀ {w : Where} {a : Arranged}, w.Shows a →
      ∃ w', Yields (composeAll constraints w) w' ∧ w'.Shows ((keptAll constraints).foldl Arranged.add a)
  | [], _, w, a, h => ⟨w, .pure _, h⟩
  | c :: rest, hs, w, a, h => by
    obtain ⟨w₁, hFirst, hShows⟩ := compose_shows hs.1 h
    obtain ⟨w₂, hRest, hEnd⟩ := composeAll_shows hs.2 hShows
    exact ⟨w₂, hFirst.bind hRest, hEnd⟩

end

end Constraint

namespace ConstraintSet

open Constraint

/-- There are no lists of clauses to be read in what is composed without any. -/
theorem compose_eq_ok {s : ConstraintSet} {w : Where} (hYields : Yields (composeSet s) w)
    (hDocument : (Json.object w).isDocument = true) : s.compose = .ok w := by
  have hEntries : w.map (fun e => (e.1, ClauseLists.read [] e.2)) = w := by
    rw [List.map_congr_left fun e he => congrArg (Prod.mk e.1) (ClauseLists.read_document []
      (((Json.isDocument_object w).mp hDocument).2 e he)), List.map_id']
  have hRun : (composeSet s).run.run [] = (.ok w, []) := hYields
  rw [compose, composeWith, hRun]
  exact congrArg Except.ok hEntries

theorem compose_oneOf (className key : String) {values : List Value} {items : List Json}
    (hItems : values.map Value.json = items) (hDocuments : ∀ item ∈ items, item.isDocument = true) :
    compose ⟨className, [.oneOf key values]⟩ = .ok [(key, .object [("$in", .array items)])] := by
  subst hItems
  have hFirst : Yields (Where.setCondition [] key (.object [("$in", .array (values.map Value.json))])) _ :=
    Where.yields_setCondition_first rfl _
  have hOne {name : String} {j : Json} (h : j.isDocument = true) : (Json.object [(name, j)]).isDocument = true :=
    (Json.isDocument_object _).mpr ⟨List.pairwise_singleton _ _, List.forall_mem_singleton.mpr h⟩
  exact compose_eq_ok (hFirst.bind (.pure _)) (hOne (hOne ((Json.isDocument_array _).mpr hDocuments)))

theorem compose_reads {s : ConstraintSet} (hs : SetExpressible s) :
    ∃ w, s.compose = .ok w ∧ ∀ r, w.reads r = setFits r (keptSet s) := by
  obtain ⟨w, hYields, hDocument, hReads⟩ := composeSet_reads hs
  exact ⟨w, compose_eq_ok hYields hDocument, hReads⟩

/-- On every record that answers the set, matching returns, and so does composing. What matches reads as
such; the object reads as matching says exactly when the record does not satisfy what is kept of the set
without satisfying the set. That cannot be when the set is typed. -/
theorem reads_eq_holds_iff {s : ConstraintSet} (hs : SetExpressible s) {r : Record}
    (hr : setAnswers r s = true) :
    ∃ w b, s.compose = .ok w ∧ s.holds r = .ok b ∧ (b = true → w.reads r = true) ∧
      (w.reads r = b ↔ (setFits r (keptSet s) = true → setFits r s = true)) ∧
      (setTyped s = true → w.reads r = b) := by
  obtain ⟨w, hCompose, hReads⟩ := compose_reads hs
  have hKept : setFits r s = true → setFits r (keptSet s) = true := setFits_kept
  have hExact : w.reads r = setFits r s ↔ (setFits r (keptSet s) = true → setFits r s = true) := by
    rw [hReads, Bool.eq_iff_iff]
    exact ⟨fun h => h.mp, fun h => ⟨h, hKept⟩⟩
  refine ⟨w, setFits r s, hCompose, setHolds_eq_setFits hr, ?_, hExact, ?_⟩
  · rw [hReads]
    exact hKept
  · exact fun hTyped => hExact.mpr (setFits_kept_of_typed hs hTyped)

/-- Two numbers around a value. -/
def between : ConstraintSet :=
  ⟨"Note", [.greaterThan "x" (.scalar (.number (.int 1))), .lessThan "x" (.scalar (.number (.int 3)))]⟩

/-- A truth value, and the number that it counts as in a document. -/
def truthAndOne : ConstraintSet :=
  ⟨"Note", [.equalTo "x" (.scalar (.bool true)), .equalTo "x" (.scalar (.number (.int 1)))]⟩

def note (x : Json) : Record := .ofFields [("x", x)]

theorem isFieldKey_x : Where.isFieldKey "x" = true := by decide +kernel

theorem reads_eq_holds_between : SetExpressible between ∧ setAnswers (note (.int 2)) between = true ∧
    ∃ w b, between.compose = .ok w ∧ between.holds (note (.int 2)) = .ok b ∧
      (b = true → w.reads (note (.int 2)) = true) ∧
      (w.reads (note (.int 2)) = b ↔
        (setFits (note (.int 2)) (keptSet between) = true → setFits (note (.int 2)) between = true)) ∧
      (setTyped between = true → w.reads (note (.int 2)) = b) := by
  have hs : SetExpressible between :=
    ⟨⟨isFieldKey_x, Value.readsBack_scalar _⟩, ⟨isFieldKey_x, Value.readsBack_scalar _⟩, trivial⟩
  have hr : setAnswers (note (.int 2)) between = true := rfl
  exact ⟨hs, hr, reads_eq_holds_iff hs hr⟩

/-- The number takes the place of the truth value, which no longer keeps the record out. -/
theorem reads_truthAndOne : SetExpressible truthAndOne ∧ setAnswers (note (.int 1)) truthAndOne = true ∧
    truthAndOne.holds (note (.int 1)) = .ok false ∧
      ∃ w, truthAndOne.compose = .ok w ∧ w.reads (note (.int 1)) = true := by
  have hs : SetExpressible truthAndOne :=
    ⟨⟨rfl, isFieldKey_x, Value.readsBack_scalar _, rfl⟩,
      ⟨rfl, isFieldKey_x, Value.readsBack_scalar _, rfl⟩, trivial⟩
  obtain ⟨w, hCompose, hReads⟩ := compose_reads hs
  have hRestated : (Constraint.equalTo "x" (.scalar (.bool true))).restatedBy
      (.equalTo "x" (.scalar (.number (.int 1)))) = true := by decide +kernel
  have hKept : keptSet truthAndOne = ⟨"Note", [.equalTo "x" (.scalar (.number (.int 1)))]⟩ := by
    simp [truthAndOne, keptSet, keptAll, kept, arrange, Arranged.add, Arranged.all, slot,
      Assoc.get?_cons, Assoc.set,
      hRestated]
  refine ⟨hs, rfl, rfl, w, hCompose, ?_⟩
  rw [hReads, hKept]
  decide +kernel

end ConstraintSet

end RecordCache
