import RecordCache.Proofs.Constraint.Condition

/-!
# The partly composed object

`Shows` relates a `where` object, while it is composed, to the constraints that it has taken in: every
condition has the operators of the constraints in its places, `$or` is the first disjunction, and the
clauses of `$and` are the rest. Taking in one more constraint keeps it, and what the object reads is
whether all those constraints fit.
-/

namespace RecordCache

namespace Json

theorem expandItems_eq_map (content : Nat → Json) (items : List Json) :
    expandItems content items = items.map (expand content) := by
  induction items with
  | nil => rfl
  | cons item rest ih => rw [expandItems, ih, List.map_cons]

theorem expandFields_eq_map (content : Nat → Json) (fields : Fields Json) :
    expandFields content fields = fields.map fun e => (e.1, expand content e.2) := by
  induction fields with
  | nil => rfl
  | cons e rest ih => rw [expandFields, ih, List.map_cons]

/-- A document has no lists of clauses to put something in place of. -/
theorem expand_document (content : Nat → Json) {j : Json} (h : j.isDocument = true) :
    expand content j = j := by
  induction j using Json.induction with
  | scalar j hScalar => cases j <;> first | rfl | cases hScalar
  | array items ih =>
    have hItems := (isDocument_array items).mp h
    rw [expand, expandItems_eq_map, List.map_congr_left fun j hj => ih j hj (hItems j hj), List.map_id']
  | object fields ih =>
    have hFields := ((isDocument_object fields).mp h).2
    rw [expand, expandFields_eq_map,
      List.map_congr_left fun e he => congrArg (Prod.mk e.1) (ih e he (hFields e he)), List.map_id']
  | other thing parts => cases h

end Json

theorem ClauseLists.read_document (lists : ClauseLists) {j : Json} (h : j.isDocument = true) :
    lists.read j = j := by
  rw [read, resolve, Json.expand_document _ h]

/-- Composing without lists of clauses returns this, and leaves no lists. -/
def Yields {α : Type} (m : Composing α) (a : α) : Prop := m.run.run [] = (.ok a, [])

namespace Yields

variable {α β : Type}

theorem pure (a : α) : Yields (Pure.pure a) a := rfl

theorem bind {m : Composing α} {f : α → Composing β} {a : α} {b : β} (hm : Yields m a)
    (hf : Yields (f a) b) :
    Yields (m >>= f) b := by
  rw [Yields, ExceptT.run_bind, StateT.run_bind, show m.run.run [] = (.ok a, []) from hm]
  exact hf

theorem lists : Yields (getThe ClauseLists) [] := rfl

end Yields

namespace Where

open Constraint

/-- The operators of the condition on a key. -/
def conditionOn (w : Where) (key : String) : Fields Json := (w.get? key).elim [] operators

theorem conditionOn_set (w : Where) (key key' : String) (condition : Json) :
    conditionOn (w.set key condition) key' =
      if key = key' then operators condition else w.conditionOn key' := by
  rw [conditionOn, Assoc.get?_set]
  split <;> rfl

/-- The clause says what the constraint says. -/
def Says (clause : Json) (c : Constraint) : Prop := ∀ r, clauseReads r clause = fits r c

end Where

namespace Constraint.Arranged

/-- The argument of an operator on a key. -/
def argument? (a : Arranged) (key op : String) : Option Json :=
  (a.tops.get? (key, family op)).bind fun c => Assoc.get? c.operation op

end Constraint.Arranged

namespace Where

open Constraint

/-- The object has taken in these constraints. -/
structure Shows (w : Where) (a : Arranged) : Prop where
  nodup : w.keys.Nodup
  isDocument : ∀ e ∈ w, e.2.isDocument = true
  isKey : ∀ key ∈ w.keys, isFieldKey key = true ∨ key = "$and" ∨ key = "$or"
  valid : a.Valid
  isCondition : ∀ {slot c}, a.tops.get? slot = some c → slot ≠ ("", "$or") → c.IsCondition
  condition : ∀ {key}, isFieldKey key = true → ∀ op, (w.conditionOn key).get? op = a.argument? key op
  conditionNodup : ∀ {key}, isFieldKey key = true → (w.conditionOn key).keys.Nodup
  alternatives : ∀ {c}, a.tops.get? ("", "$or") = some c →
    ∃ left right, w.get? "$or" = some (.array [left, right]) ∧
      ∀ r, (clauseReads r left || clauseReads r right) = fits r c
  noAlternatives : a.tops.get? ("", "$or") = none → w.get? "$or" = none
  clauses : w.get? "$and" = none ∧ a.rest = [] ∨
    ∃ clauses, w.get? "$and" = some (.array clauses) ∧ List.Forall₂ Says clauses a.rest

namespace Shows

variable {w : Where} {a : Arranged}

theorem empty : Shows [] {} where
  nodup := List.nodup_nil
  isDocument := nofun
  isKey := nofun
  valid := ⟨List.nodup_nil, nofun⟩
  isCondition := nofun
  condition _ _ := rfl
  conditionNodup _ := List.nodup_nil
  alternatives := nofun
  noAlternatives _ := rfl
  clauses := .inl ⟨rfl, rfl⟩

theorem isCondition_of_get? (h : Shows w a) {slot : String × String} {c : Constraint} {op : String}
    {j : Json}
    (hTop : a.tops.get? slot = some c) (hOp : Assoc.get? c.operation op = some j) : c.IsCondition := by
  refine h.isCondition hTop ?_
  rintro rfl
  rw [operation_of_slot (h.valid.slot_eq hTop)] at hOp
  cases hOp

theorem startsWith_of_mem (h : Shows w a) {key : String} (hKey : isFieldKey key = true) {e : String × Json}
    (he : e ∈ w.conditionOn key) : e.1.startsWith "$" = true := by
  have hGet := Assoc.get?_of_mem (h.conditionNodup hKey) he
  rw [h.condition hKey, Arranged.argument?] at hGet
  obtain ⟨c, hTop, hOp⟩ := Option.bind_eq_some_iff.mp hGet
  exact (h.isCondition_of_get? hTop hOp).startsWith_of_get? hOp

theorem get?_clauseKey_set (w : Where) {key other : String} (h : key ≠ other) (j : Json) :
    Assoc.get? (w.set key j) other = w.get? other := by
  rw [Assoc.get?_set, if_neg h]

theorem isDocument_set (h : Shows w a) (key : String) {j : Json} (hj : j.isDocument = true) :
    ∀ e ∈ w.set key j, e.2.isDocument = true := by
  intro e he
  rcases Assoc.mem_set he with hMem | rfl
  · exact h.isDocument e hMem
  · exact hj

theorem isKey_set (h : Shows w a) {key : String} (hKey : isFieldKey key = true ∨ key = "$and" ∨ key = "$or")
    (j : Json) : ∀ k ∈ Assoc.keys (w.set key j), isFieldKey k = true ∨ k = "$and" ∨ k = "$or" := by
  intro k hk
  rw [Assoc.keys_set] at hk
  split at hk
  · exact h.isKey k hk
  · rcases List.mem_append.mp hk with hMem | hMem
    · exact h.isKey k hMem
    · rw [List.mem_singleton.mp hMem]
      exact hKey

theorem setTop (h : Shows w a) {c : Constraint} (hc : c.IsCondition) {condition : Json}
    (hDocument : condition.isDocument = true) (hNodup : (Assoc.keys (operators condition)).Nodup)
    (hOperators : ∀ op, Assoc.get? (operators condition) op =
      if family op = c.slot.2 then Assoc.get? c.operation op else a.argument? c.slot.1 op) :
    Shows (w.set c.slot.1 condition) { a with tops := a.tops.set c.slot c } := by
  obtain ⟨hAnd, hOr⟩ := ne_of_isFieldKey hc.isFieldKey
  have hTops : (a.tops.set c.slot c).get? ("", "$or") = a.tops.get? ("", "$or") := by
    rw [Assoc.get?_set, if_neg hc.slot_ne]
  exact {
    nodup := Assoc.nodup_keys_set h.nodup _ _
    isDocument := h.isDocument_set _ hDocument
    isKey := h.isKey_set (.inl hc.isFieldKey) _
    valid := Arranged.valid_set h.valid c
    isCondition := by
      intro slot c' hTop hSlot
      rw [Assoc.get?_set] at hTop
      split at hTop
      · cases hTop
        exact hc
      · exact h.isCondition hTop hSlot
    condition := by
      intro key hKey op
      rw [conditionOn_set, Arranged.argument?, Assoc.get?_set]
      by_cases hEq : c.slot.1 = key
      · subst hEq
        rw [if_pos rfl, hOperators]
        by_cases hFamily : family op = c.slot.2
        · rw [if_pos hFamily, if_pos (by rw [hFamily])]
          rfl
        · rw [if_neg hFamily, if_neg fun hSlot => hFamily (congrArg Prod.snd hSlot).symm]
          rfl
      · rw [if_neg hEq, if_neg fun hSlot => hEq (congrArg Prod.fst hSlot)]
        exact h.condition hKey op
    conditionNodup := by
      intro key hKey
      rw [conditionOn_set]
      split
      · exact hNodup
      · exact h.conditionNodup hKey
    alternatives := by
      intro c' hTop
      rw [get?_clauseKey_set w hOr]
      exact h.alternatives (hTops ▸ hTop)
    noAlternatives := by
      intro hTop
      rw [get?_clauseKey_set w hOr]
      exact h.noAlternatives (hTops ▸ hTop)
    clauses := by
      rw [get?_clauseKey_set w hAnd]
      exact h.clauses }

theorem addClause (h : Shows w a) {clause : Json} {c : Constraint} (hDocument : clause.isDocument = true)
    (hSays : Says clause c) :
    ∃ w', Yields (w.addClause clause) w' ∧ Shows w' { a with rest := a.rest ++ [c] } := by
  obtain ⟨clauses, hYields, hDocuments, hClauses⟩ : ∃ clauses,
      Yields (w.addClause clause) (w.set "$and" (.array clauses)) ∧ (Json.array clauses).isDocument = true ∧
        List.Forall₂ Says clauses (a.rest ++ [c]) := by
    rcases h.clauses with ⟨hNone, hRest⟩ | ⟨clauses, hSome, hClauses⟩
    · refine ⟨[clause], ?_, ?_, ?_⟩
      · rw [Where.addClause, clauseKey, hNone]
        exact .pure _
      · rw [Json.isDocument_array]
        exact fun j hj => List.mem_singleton.mp hj ▸ hDocument
      · rw [hRest]
        exact .cons hSays .nil
    · have hBefore := h.isDocument _ (Assoc.mem_of_get? hSome)
      refine ⟨clauses ++ [clause], ?_, ?_, List.rel_append hClauses (.cons hSays .nil)⟩
      · rw [Where.addClause, clauseKey, hSome]
        exact .pure _
      · rw [Json.isDocument_array] at hBefore ⊢
        intro j hj
        rcases List.mem_append.mp hj with hMem | hMem
        · exact hBefore j hMem
        · exact List.mem_singleton.mp hMem ▸ hDocument
  have hOn {key : String} (hKey : isFieldKey key = true) :
      conditionOn (w.set "$and" (.array clauses)) key = w.conditionOn key := by
    rw [conditionOn_set, if_neg (ne_of_isFieldKey hKey).1.symm]
  refine ⟨_, hYields, {
    nodup := Assoc.nodup_keys_set h.nodup _ _
    isDocument := h.isDocument_set _ hDocuments
    isKey := h.isKey_set (.inr (.inl rfl)) _
    valid := ⟨h.valid.nodup, h.valid.slot_eq⟩
    isCondition := h.isCondition
    condition := fun hKey op => by
      rw [hOn hKey]
      exact h.condition hKey op
    conditionNodup := fun hKey => by
      rw [hOn hKey]
      exact h.conditionNodup hKey
    alternatives := fun hTop => by
      rw [get?_clauseKey_set w (by decide)]
      exact h.alternatives hTop
    noAlternatives := fun hTop => by
      rw [get?_clauseKey_set w (by decide)]
      exact h.noAlternatives hTop
    clauses := .inr ⟨clauses, ?_, hClauses⟩ }⟩
  rw [Assoc.get?_set, if_pos rfl]

theorem setAlternatives (h : Shows w a) {c : Constraint} (hc : c.slot = ("", "$or")) {left right : Json}
    (hLeft : left.isDocument = true) (hRight : right.isDocument = true)
    (hSays : ∀ r, (clauseReads r left || clauseReads r right) = fits r c) :
    Shows (w.set "$or" (.array [left, right])) { a with tops := a.tops.set c.slot c } := by
  have hOn {key : String} (hKey : isFieldKey key = true) :
      conditionOn (w.set "$or" (.array [left, right])) key = w.conditionOn key := by
    rw [conditionOn_set, if_neg (ne_of_isFieldKey hKey).2.symm]
  have hDocument : (Json.array [left, right]).isDocument = true := by
    rw [Json.isDocument_array]
    intro j hj
    rcases List.mem_cons.mp hj with rfl | hMem
    · exact hLeft
    · exact List.mem_singleton.mp hMem ▸ hRight
  exact {
    nodup := Assoc.nodup_keys_set h.nodup _ _
    isDocument := h.isDocument_set _ hDocument
    isKey := h.isKey_set (.inr (.inr rfl)) _
    valid := Arranged.valid_set h.valid c
    isCondition := by
      intro slot c' hTop hSlot
      rw [Assoc.get?_set, hc, if_neg hSlot.symm] at hTop
      exact h.isCondition hTop hSlot
    condition := by
      intro key hKey op
      rw [hOn hKey, h.condition hKey, Arranged.argument?, Arranged.argument?, Assoc.get?_set, hc]
      -- no operator is found in the place of the disjunction, before or after
      by_cases hSlot : ("", "$or") = (key, family op)
      · rw [if_pos hSlot, Option.bind_some, operation_of_slot hc, ← hSlot]
        cases hTop : a.tops.get? ("", "$or") with
        | none => rfl
        | some c' =>
          rw [Option.bind_some, operation_of_slot (h.valid.slot_eq hTop)]
      · rw [if_neg hSlot]
    conditionNodup := by
      intro key hKey
      rw [hOn hKey]
      exact h.conditionNodup hKey
    alternatives := by
      intro c' hTop
      rw [hc, Assoc.get?_set, if_pos rfl] at hTop
      cases hTop
      rw [Assoc.get?_set, if_pos rfl]
      exact ⟨left, right, rfl, hSays⟩
    noAlternatives := by
      intro hTop
      rw [hc, Assoc.get?_set, if_pos rfl] at hTop
      cases hTop
    clauses := by
      rw [get?_clauseKey_set w (by decide)]
      exact h.clauses }

end Shows

end Where

end RecordCache
