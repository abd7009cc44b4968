import RecordCache.Proofs.Constraint.Compose

/-!
# Arguments and places

The arguments of a constraint of any kind, and the place that it takes in a set. A constraint joins what
stands in its place when their arguments are equal as documents; a relation always does, and a disjunction
never does. `Constraint.layout` arranges a set by this rule, and `Arranged.Holds` says what is where: the
last one to join the first of a place, and the others in turn.
-/

namespace RecordCache

namespace Constraint

/-- The `where` object of a set that can be composed. -/
def body (s : Conjunction Constraint) : Where := ((composeSet s).run.run []).1.toOption.getD []

theorem body_eq {s : Conjunction Constraint} {w : Where} (h : Yields (composeSet s) w) : body s = w := by
  rw [body, show (composeSet s).run.run [] = (.ok w, []) from h]
  rfl

/-- The values that the operators of a constraint are given. -/
def meant : Constraint → Fields Value
  | .equalTo _ value _ => [("$eq", value)]
  | .greaterThan _ value => [("$gt", value)]
  | .lessThan _ value => [("$lt", value)]
  | .present _ expected => [("$exists", .scalar (.bool expected))]
  | .matching _ p =>
    [("$regex", .scalar (Scalar.ofJson p.source)), ("$options", .scalar (.string p.optionLetters))]
  | .oneOf _ values => [("$in", .raw (.array (values.map Value.json)))]
  | .noneOf _ values => [("$nin", .raw (.array (values.map Value.json)))]
  | .either left right => [("$or", .raw (.array [.object (body left), .object (body right)]))]
  | .relatedTo key owner =>
    [("$relatedTo", .raw (.object [("object", (ownerJson owner).toOption.getD .null), ("key", .string key)]))]
  | .selected _ matchKey inner => [("$select", .raw (subQuery matchKey inner.className (body inner)))]
  | .notSelected _ matchKey inner => [("$dontSelect", .raw (subQuery matchKey inner.className (body inner)))]

def arguments (c : Constraint) : Fields Json := c.meant.map fun e => (e.1, e.2.json)

/-- Stands in the object itself, not on the key of a field. -/
def isGlobal (op : String) : Bool := op == "$or" || op == "$relatedTo"

/-- The later constraint takes the place of the earlier one. -/
def joins (old new : Constraint) : Bool :=
  match new with
  | .either _ _ => false
  | .relatedTo _ _ => true
  | _ => old.arguments.all fun e => (Assoc.get? new.arguments e.1).all fun j => e.2.same j

/-- Equal as documents, operator by operator. -/
def SameArguments (c d : Constraint) : Prop :=
  ∀ op j j', Assoc.get? c.arguments op = some j → Assoc.get? d.arguments op = some j' → j.same j' = true

theorem get?_arguments (c : Constraint) (op : String) :
    Assoc.get? c.arguments op = (Assoc.get? c.meant op).map Value.json :=
  Assoc.get?_map_snd _ _ _

theorem nodup_arguments (c : Constraint) : (Assoc.keys c.arguments).Nodup := by
  cases c <;> simp [arguments, meant, Assoc.keys]

theorem isSome_get?_arguments (c : Constraint) (op : String) :
    (Assoc.get? c.arguments op).isSome = true ↔ family op = c.slot.2 := by
  rw [← Assoc.mem_keys_iff]
  by_cases hOptions : op = "$options"
  · subst hOptions
    cases c <;> simp [arguments, meant, Assoc.keys, family, slot]
  · cases c <;> simp [arguments, meant, Assoc.keys, family, slot, hOptions]

theorem startsWith_arguments {c : Constraint} {e : String × Json} (he : e ∈ c.arguments) :
    e.1.startsWith "$" = true := by
  have hKey := Assoc.mem_keys_of_mem he
  cases c <;> simp [arguments, meant, Assoc.keys] at hKey
  case matching => rcases hKey with hKey | hKey <;> rw [hKey] <;> decide +kernel
  all_goals
    rw [hKey]
    decide +kernel

theorem get?_arguments_eq_none {c : Constraint} {op : String} (h : family op ≠ c.slot.2) :
    Assoc.get? c.arguments op = none := by
  rwa [← Option.not_isSome_iff_eq_none, isSome_get?_arguments]

theorem operators_arguments (c : Constraint) : Where.operators (.object c.arguments) = c.arguments := by
  refine operators_object ?_ fun e he => startsWith_arguments he
  cases c <;> exact List.cons_ne_nil _ _

/-! ### Operators -/

theorem family_slot (c : Constraint) : family c.slot.2 = c.slot.2 := by
  cases c <;> simp [family, slot]

theorem isGlobal_family (op : String) : isGlobal (family op) = isGlobal op := by
  by_cases h : op = "$options"
  · subst h
    rfl
  · rw [family, if_neg h]

theorem eq_of_family_isGlobal {op op' : String} (hGlobal : isGlobal op = true) (h : family op' = op) :
    op' = op := by
  by_cases hOptions : op' = "$options"
  · subst hOptions
    subst h
    cases hGlobal
  · rwa [family, if_neg hOptions] at h

theorem key_of_isGlobal {c : Constraint} (h : isGlobal c.slot.2 = true) : c.slot.1 = "" := by
  cases c <;> first | rfl | cases h

/-! ### Equal arguments -/

/-- On the key of a field, and with arguments that read back. -/
structure Legible (c : Constraint) : Prop where
  isFieldKey : Where.isFieldKey c.slot.1 = true
  readsBack : ∀ e ∈ c.meant, e.2.ReadsBack

namespace Legible

variable {c d : Constraint}

theorem isDocument_argument (h : c.Legible) {op : String} {j : Json}
    (hOp : Assoc.get? c.arguments op = some j) : j.isDocument = true := by
  rw [get?_arguments, Option.map_eq_some_iff] at hOp
  obtain ⟨v, hv, rfl⟩ := hOp
  exact (h.readsBack _ (Assoc.mem_of_get? hv)).1.isDocument_json

theorem isDocument_arguments (h : c.Legible) : (Json.object c.arguments).isDocument = true := by
  rw [Json.isDocument_object]
  exact ⟨nodup_arguments c, fun e he => h.isDocument_argument (Assoc.get?_of_mem (nodup_arguments c) he)⟩

theorem clash_arguments (hd : d.Legible) (hc : c.Legible) :
    Where.clash [] d.arguments c.arguments = true ↔ ¬ SameArguments d c := by
  rw [Where.clash, List.any_eq_true]
  simp only [SameArguments, not_forall]
  constructor
  · rintro ⟨⟨op, j'⟩, hMem, hClash⟩
    have hNew := Assoc.get?_of_mem (nodup_arguments c) hMem
    cases hOld : Assoc.get? d.arguments op with
    | none =>
      rw [hOld] at hClash
      cases hClash
    | some j =>
      rw [hOld] at hClash
      simp only [ClauseLists.read_document [] (hd.isDocument_argument hOld),
        ClauseLists.read_document [] (hc.isDocument_argument hNew), Bool.not_eq_true'] at hClash
      exact ⟨op, j, j', hOld, hNew, by rw [hClash]; exact Bool.false_ne_true⟩
  · rintro ⟨op, j, j', hOld, hNew, hDiffer⟩
    refine ⟨(op, j'), Assoc.mem_of_get? hNew, ?_⟩
    simp only [hOld, ClauseLists.read_document [] (hd.isDocument_argument hOld),
      ClauseLists.read_document [] (hc.isDocument_argument hNew), Bool.not_eq_true']
    exact Bool.eq_false_iff.mpr hDiffer

theorem sameArguments_symm (hc : c.Legible) (h : SameArguments c d) : SameArguments d c :=
  fun op j j' hd hc' => Json.same_symm (hc.isDocument_argument hc') (h op j' j hc' hd)

theorem sameArguments_trans {e : Constraint} (hd : d.Legible) (hSlot : c.slot = d.slot)
    (h : SameArguments c d) (h' : SameArguments d e) : SameArguments c e := by
  intro op j j'' hc he
  have hSome : (Assoc.get? d.arguments op).isSome = true := by
    rw [isSome_get?_arguments, ← hSlot, ← isSome_get?_arguments, hc]
    rfl
  obtain ⟨j', hd'⟩ := Option.isSome_iff_exists.mp hSome
  exact Json.same_trans (hd.isDocument_argument hd') (h op j j' hc hd') (h' op j' j'' hd' he)

end Legible

theorem joins_iff {old new : Constraint} (hField : isGlobal new.slot.2 = false) :
    old.joins new = true ↔ SameArguments old new := by
  have hAll : old.joins new =
      old.arguments.all fun e => (Assoc.get? new.arguments e.1).all fun j => e.2.same j := by
    cases new <;> first | rfl | cases hField
  rw [hAll, List.all_eq_true]
  constructor
  · intro h op j j' hOld hNew
    have hSame := h _ (Assoc.mem_of_get? hOld)
    rwa [hNew] at hSame
  · rintro h ⟨op, j⟩ hMem
    rw [Option.all_eq_true]
    exact fun j' hNew => h op j j' (Assoc.get?_of_mem (nodup_arguments old) hMem) hNew

/-! ### Joining -/

section

variable {a b c : Constraint}

theorem joins_of_isGlobal {a' : Constraint} (hGlobal : isGlobal c.slot.2 = true) :
    a.joins c = a'.joins c := by
  cases c <;> first | rfl | cases hGlobal

theorem joins_trans (hb : b.Legible) (hSlot : b.slot = c.slot) (hab : a.slot = b.slot)
    (h : a.joins b = true) (h' : b.joins c = true) : a.joins c = true := by
  cases hField : isGlobal c.slot.2 with
  | true => rwa [joins_of_isGlobal hField]
  | false =>
    rw [joins_iff hField] at h' ⊢
    rw [joins_iff (hSlot ▸ hField)] at h
    exact hb.sameArguments_trans hab h h'

theorem joins_of_joins (ha : a.Legible) (hSlot : b.slot = c.slot) (hab : a.slot = b.slot)
    (h : a.joins b = true) (h' : a.joins c = true) : b.joins c = true := by
  cases hField : isGlobal c.slot.2 with
  | true => rwa [joins_of_isGlobal hField]
  | false =>
    rw [joins_iff hField] at h' ⊢
    rw [joins_iff (hSlot ▸ hField)] at h
    exact ha.sameArguments_trans hab.symm (ha.sameArguments_symm h) h'

end

/-! ### Places -/

namespace Arranged

def place (a : Arranged) (c : Constraint) : Arranged :=
  if (a.tops.get? c.slot).all (·.joins c) then { a with tops := a.tops.set c.slot c }
  else { a with rest := a.rest ++ [c] }

/-- The argument of an operator, in the object itself or on a key. -/
def held (a : Arranged) (key op : String) : Option Json :=
  (a.tops.get? (key, family op)).bind fun c => Assoc.get? c.arguments op

end Arranged

def layout (constraints : List Constraint) : Arranged := constraints.foldl Arranged.place {}

/-- The first constraint of a place. -/
def firstAt (constraints : List Constraint) (slot : String × String) : Option Constraint :=
  constraints.find? fun c => c.slot == slot

/-- The first one of its place, or one that joins it. -/
def JoinsFirst (constraints : List Constraint) (c : Constraint) : Prop :=
  ∃ first, firstAt constraints c.slot = some first ∧ (first = c ∨ first.joins c = true)

section

variable {constraints : List Constraint} {c d first : Constraint} {slot : String × String}

theorem mem_of_firstAt (h : firstAt constraints slot = some first) :
    first ∈ constraints ∧ first.slot = slot := by
  rw [firstAt] at h
  have hSlot := List.find?_some h
  exact ⟨List.mem_of_find?_eq_some h, beq_iff_eq.mp hSlot⟩

theorem firstAt_append (h : firstAt constraints slot = some first) (c : Constraint) :
    firstAt (constraints ++ [c]) slot = some first := by
  rw [firstAt, List.find?_append, show constraints.find? _ = _ from h]
  rfl

theorem JoinsFirst.append (h : JoinsFirst constraints d) (c : Constraint) :
    JoinsFirst (constraints ++ [c]) d := by
  obtain ⟨first, hFirst, hJoins⟩ := h
  exact ⟨first, firstAt_append hFirst c, hJoins⟩

/-- The arrangement holds the constraints: the first of each place and those that join it, of which the
last one stands there, and the others. -/
structure Arranged.Holds (a : Arranged) (constraints : List Constraint) : Prop where
  top : ∀ {slot d}, a.tops.get? slot = some d →
    d ∈ constraints ∧ d.slot = slot ∧ JoinsFirst constraints d
  filled : ∀ c ∈ constraints, ∃ d, a.tops.get? c.slot = some d
  apart : ∀ d ∈ a.rest, d ∈ constraints ∧
    ∃ first, firstAt constraints d.slot = some first ∧ first.joins d = false
  every : ∀ c ∈ constraints, JoinsFirst constraints c ∨ c ∈ a.rest

namespace Arranged.Holds

variable {a : Arranged}

theorem setTop (h : a.Holds constraints) (hc : JoinsFirst (constraints ++ [c]) c) :
    Holds { a with tops := a.tops.set c.slot c } (constraints ++ [c]) where
  top := by
    intro slot d hTop
    rw [Assoc.get?_set] at hTop
    split at hTop
    · next hSlot =>
      cases hTop
      exact ⟨List.mem_append_right _ List.mem_cons_self, hSlot, hc⟩
    · obtain ⟨hMem, hSlot, hJoins⟩ := h.top hTop
      exact ⟨List.mem_append_left _ hMem, hSlot, hJoins.append c⟩
  filled := by
    intro d hd
    rw [Assoc.get?_set]
    split
    · exact ⟨c, rfl⟩
    · next hSlot =>
      rcases List.mem_append.mp hd with hMem | hMem
      · exact h.filled d hMem
      · exact absurd (congrArg slot (List.mem_singleton.mp hMem).symm) hSlot
  apart := by
    intro d hd
    obtain ⟨hMem, first, hFirst, hJoins⟩ := h.apart d hd
    exact ⟨List.mem_append_left _ hMem, first, firstAt_append hFirst c, hJoins⟩
  every := by
    intro d hd
    rcases List.mem_append.mp hd with hMem | hMem
    · exact (h.every d hMem).imp_left (·.append c)
    · exact .inl (List.mem_singleton.mp hMem ▸ hc)

theorem addClause (h : a.Holds constraints) (hFirst : firstAt constraints c.slot = some first)
    (hJoins : first.joins c = false) : Holds { a with rest := a.rest ++ [c] } (constraints ++ [c]) where
  top := by
    intro slot d hTop
    obtain ⟨hMem, hSlot, hd⟩ := h.top hTop
    exact ⟨List.mem_append_left _ hMem, hSlot, hd.append c⟩
  filled := by
    intro d hd
    rcases List.mem_append.mp hd with hMem | hMem
    · exact h.filled d hMem
    · rw [List.mem_singleton.mp hMem, ← (mem_of_firstAt hFirst).2]
      exact h.filled first (mem_of_firstAt hFirst).1
  apart := by
    intro d hd
    rcases List.mem_append.mp hd with hMem | hMem
    · obtain ⟨hBefore, first', hFirst', hJoins'⟩ := h.apart d hMem
      exact ⟨List.mem_append_left _ hBefore, first', firstAt_append hFirst' c, hJoins'⟩
    · rw [List.mem_singleton.mp hMem]
      exact ⟨List.mem_append_right _ List.mem_cons_self, first, firstAt_append hFirst c, hJoins⟩
  every := by
    intro d hd
    rcases List.mem_append.mp hd with hMem | hMem
    · exact (h.every d hMem).imp (·.append c) (List.mem_append_left _)
    · exact .inr (List.mem_append_right _ hMem)

theorem place (h : a.Holds constraints) (hLegible : ∀ d ∈ constraints, d.Legible) (c : Constraint) :
    (a.place c).Holds (constraints ++ [c]) := by
  rw [Arranged.place]
  cases hTop : a.tops.get? c.slot with
  | none =>
    -- no constraint came to this place before
    have hNone : firstAt constraints c.slot = none := by
      rw [firstAt, List.find?_eq_none]
      intro d hd hSlot
      obtain ⟨top, hSome⟩ := h.filled d hd
      rw [beq_iff_eq.mp hSlot, hTop] at hSome
      cases hSome
    refine h.setTop ⟨c, ?_, .inl rfl⟩
    rw [firstAt, List.find?_append, show constraints.find? _ = _ from hNone]
    simp
  | some top =>
    obtain ⟨hMem, hSlot, first, hFirst, hJoined⟩ := h.top hTop
    rw [hSlot] at hFirst
    obtain ⟨hFirstMem, hFirstSlot⟩ := mem_of_firstAt hFirst
    have hSlots : first.slot = top.slot := hFirstSlot.trans hSlot.symm
    rw [Option.all_some]
    cases hJoins : top.joins c with
    | true =>
      refine h.setTop ⟨first, firstAt_append hFirst c, .inr ?_⟩
      rcases hJoined with rfl | hJoined
      · exact hJoins
      · exact joins_trans (hLegible top hMem) hSlot hSlots hJoined hJoins
    | false =>
      refine h.addClause hFirst (Bool.eq_false_iff.mpr fun hFirstJoins => ?_)
      rw [← Bool.not_eq_true] at hJoins
      refine hJoins ?_
      rcases hJoined with rfl | hJoined
      · exact hFirstJoins
      · exact joins_of_joins (hLegible first hFirstMem) hSlot hSlots hJoined hFirstJoins

end Arranged.Holds

theorem holds_layout (hLegible : ∀ c ∈ constraints, c.Legible) :
    (layout constraints).Holds constraints := by
  induction constraints using List.reverseRec with
  | nil => exact ⟨nofun, nofun, nofun, nofun⟩
  | append_singleton before c ih =>
    have hBefore : ∀ d ∈ before, d.Legible := fun d hd => hLegible d (List.mem_append_left _ hd)
    rw [layout, List.foldl_append]
    exact (ih hBefore).place hBefore c

end

end Constraint

end RecordCache
