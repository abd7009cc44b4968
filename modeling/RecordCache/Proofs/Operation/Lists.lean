import RecordCache.Proofs.Operation.Body
import RecordCache.Proofs.Value.Documents

/-!
# Lists as sets

`AddUnique` and `Remove` compare objects as documents. `ListLaws` says what the changes of a list field
amount to when objects are compared by a relation of one's own. The laws hold of the equality of documents;
of the equality of values they hold exactly when it finds what the other one finds.
-/

namespace RecordCache.Operation

/-- What is added to the items of a list, so that each object is there once. -/
structure Adds (like : Json → Json → Bool) (items objects added : List Json) : Prop where
  inOrder : added.Sublist objects
  covers : ∀ o ∈ objects, ∃ x ∈ items ++ added, like x o = true
  newToItems : ∀ x ∈ items, ∀ y ∈ added, like x y = false
  newToEarlier : added.Pairwise fun x y => like x y = false

/-- The changes of a list field, up to `like`. -/
structure ListLaws (like : Json → Json → Bool) (raw : Keyed Json) (key : String) (objects : List Json) : Prop where
  current : ∀ items, Assoc.get? raw (.string key) = some (.array items) → currentItems raw key = items
  noList : (∀ items, Assoc.get? raw (.string key) ≠ some (.array items)) → currentItems raw key = []
  addUnique : ∃ added, Adds like (currentItems raw key) objects added ∧
    (addUnique key objects).apply raw = .ok (setField raw key (.array (currentItems raw key ++ added)))
  addUniqueAgain : ∀ after, (Operation.addUnique key objects).apply raw = .ok after →
    (Operation.addUnique key objects).apply after = .ok after
  remove : (remove key objects).apply raw =
    .ok (setField raw key (.array ((currentItems raw key).filter fun item => !objects.any (like item))))
  removeAfterAdd : ∃ after, (add key objects).apply raw = .ok after ∧
    (Operation.remove key objects).apply after = (Operation.remove key objects).apply raw
  others : ∀ o ∈ [add key objects, .addUnique key objects, .remove key objects], ∃ after,
    o.apply raw = .ok after ∧ ∀ name ≠ .string key, Assoc.get? after name = Assoc.get? raw name

/-- Among the candidates, the equality of values finds something exactly when the one of documents does. -/
def Agrees (candidates : List Json) (o : Json) : Prop :=
  (∃ x ∈ candidates, x.alike o = true) ↔ ∃ x ∈ candidates, x.sameValue o = true

/-- Each object equals itself, and the two equalities agree on it among what comes before it; on each item
they agree among the objects. -/
structure ComparesByValue (items objects : List Json) : Prop where
  readable : ∀ o ∈ objects, o.sameValue o = true
  adding : ∀ before o after, objects = before ++ o :: after → Agrees (items ++ before) o
  removing : ∀ item ∈ items, (∃ o ∈ objects, item.alike o = true) ↔ ∃ o ∈ objects, item.sameValue o = true

variable {raw : Keyed Json} {key : String} {items objects added : List Json} {like : Json → Json → Bool} {o : Json}

/-! ### Adding -/

theorem among_iff : o.among items = true ↔ ∃ x ∈ items, x.alike o = true := by
  rw [Json.among, List.any_eq_true]

theorem appendUnique_of_among (h : o.among items = true) : appendUnique items o = items := if_pos h

theorem appendUnique_of_not_among (h : o.among items = false) : appendUnique items o = items ++ [o] :=
  if_neg (by simp [h])

theorem foldl_appendUnique_concat (items before : List Json) (o : Json) :
    (before ++ [o]).foldl appendUnique items = appendUnique (before.foldl appendUnique items) o := by
  rw [List.foldl_append]
  rfl

theorem exists_alike_of_mem (hObjects : ∀ o ∈ objects, o.isDocument = true) (ho : o ∈ objects) :
    ∃ x ∈ objects.foldl appendUnique items, x.alike o = true := by
  induction objects using List.reverseRecOn with
  | nil => cases ho
  | append_singleton before last ih =>
    rw [foldl_appendUnique_concat, appendUnique]
    rw [List.forall_mem_append] at hObjects
    rcases List.mem_append.mp ho with hBefore | hLast
    · obtain ⟨x, hx, hAlike⟩ := ih hObjects.1 hBefore
      refine ⟨x, ?_, hAlike⟩
      split
      · exact hx
      · exact List.mem_append_left _ hx
    · obtain rfl := List.mem_singleton.mp hLast
      split
      · next hAmong => exact among_iff.mp hAmong
      · exact ⟨o, List.mem_append_right _ hLast, Json.alike_self (hObjects.2 o hLast)⟩

/-- The list stays as it is and grows at its end, by objects that are given. -/
theorem exists_added (items objects : List Json) :
    ∃ added, objects.foldl appendUnique items = items ++ added ∧ added.Sublist objects := by
  induction objects generalizing items with
  | nil => exact ⟨[], (List.append_nil items).symm, .slnil⟩
  | cons o rest ih =>
    rw [List.foldl_cons]
    cases hAmong : o.among items with
    | true =>
      obtain ⟨added, hEq, hSub⟩ := ih items
      exact ⟨added, by rw [appendUnique_of_among hAmong, hEq], hSub.cons o⟩
    | false =>
      obtain ⟨added, hEq, hSub⟩ := ih (items ++ [o])
      exact ⟨o :: added, by rw [appendUnique_of_not_among hAmong, hEq, List.append_assoc]; rfl, hSub.cons_cons o⟩

theorem mem_append_of_sublist {before : List Json} (h : added.Sublist before) {x : Json} (hx : x ∈ items ++ added) :
    x ∈ items ++ before :=
  ((List.Sublist.refl items).append h).subset hx

theorem among_foldl_iff {before : List Json} (hBefore : ∀ x ∈ before, x.isDocument = true) :
    o.among (before.foldl appendUnique items) = true ↔ ∃ x ∈ items ++ before, x.alike o = true := by
  obtain ⟨added, hEq, hSub⟩ := exists_added items before
  rw [among_iff]
  constructor
  · rintro ⟨x, hx, hAlike⟩
    rw [hEq] at hx
    exact ⟨x, mem_append_of_sublist hSub hx, hAlike⟩
  · rintro ⟨x, hx, hAlike⟩
    rcases List.mem_append.mp hx with hItem | hMem
    · exact ⟨x, by rw [hEq]; exact List.mem_append_left _ hItem, hAlike⟩
    · obtain ⟨y, hy, hLike⟩ : ∃ y ∈ before.foldl appendUnique items, y.alike x = true :=
        exists_alike_of_mem hBefore hMem
      exact ⟨y, hy, Json.alike_trans (hBefore x hMem) hLike hAlike⟩

theorem Adds.keep {before : List Json} (h : Adds like items before added)
    (hFound : ∃ x ∈ items ++ added, like x o = true) : Adds like items (before ++ [o]) added where
  inOrder := h.inOrder.trans (List.sublist_append_left _ _)
  covers := List.forall_mem_append.mpr ⟨h.covers, List.forall_mem_singleton.mpr hFound⟩
  newToItems := h.newToItems
  newToEarlier := h.newToEarlier

theorem Adds.push {before : List Json} (h : Adds like items before added) (hSelf : like o o = true)
    (hNew : ∀ x ∈ items ++ added, like x o = false) : Adds like items (before ++ [o]) (added ++ [o]) where
  inOrder := h.inOrder.append (.refl _)
  covers := by
    rw [← List.append_assoc]
    refine List.forall_mem_append.mpr ⟨fun o' ho' => ?_, List.forall_mem_singleton.mpr ?_⟩
    · obtain ⟨x, hx, hLike⟩ := h.covers o' ho'
      exact ⟨x, List.mem_append_left _ hx, hLike⟩
    · exact ⟨o, List.mem_append_right _ (List.mem_singleton_self o), hSelf⟩
  newToItems x hx := List.forall_mem_append.mpr
    ⟨h.newToItems x hx, List.forall_mem_singleton.mpr (hNew x (List.mem_append_left _ hx))⟩
  newToEarlier := List.pairwise_append.mpr ⟨h.newToEarlier, List.pairwise_singleton _ _,
    fun x hx => List.forall_mem_singleton.mpr (hNew x (List.mem_append_right _ hx))⟩

/-- Where `like` finds what the equality of documents finds, each object goes in that is new up to `like`. -/
theorem exists_adds (hObjects : ∀ o ∈ objects, o.isDocument = true) (hSelf : ∀ o ∈ objects, like o o = true)
    (hTrans : ∀ x y z, y.isDocument = true → like x y = true → like y z = true → like x z = true)
    (hFinds : ∀ before o after, objects = before ++ o :: after →
      ((∃ x ∈ items ++ before, x.alike o = true) ↔ ∃ x ∈ items ++ before, like x o = true)) :
    ∃ added, objects.foldl appendUnique items = items ++ added ∧ Adds like items objects added := by
  induction objects using List.reverseRecOn with
  | nil =>
    exact ⟨[], (List.append_nil items).symm, .slnil, fun _ h => (List.not_mem_nil h).elim,
      fun _ _ _ h => (List.not_mem_nil h).elim, .nil⟩
  | append_singleton before last ih =>
    rw [List.forall_mem_append] at hObjects hSelf
    obtain ⟨added, hEq, hAdds⟩ := ih hObjects.1 hSelf.1 fun before' o after hSplit =>
      hFinds before' o (after ++ [last]) (by rw [hSplit, List.append_assoc]; rfl)
    have hFound := (among_foldl_iff hObjects.1).trans (hFinds before last [] rfl)
    rw [foldl_appendUnique_concat]
    cases hAmong : last.among (before.foldl appendUnique items) with
    | true =>
      refine ⟨added, by rw [appendUnique_of_among hAmong, hEq], hAdds.keep ?_⟩
      obtain ⟨x, hx, hLike⟩ := hFound.mp hAmong
      rcases List.mem_append.mp hx with hItem | hMem
      · exact ⟨x, List.mem_append_left _ hItem, hLike⟩
      · obtain ⟨y, hy, hLike'⟩ := hAdds.covers x hMem
        exact ⟨y, hy, hTrans y x last (hObjects.1 x hMem) hLike' hLike⟩
    | false =>
      refine ⟨added ++ [last], by rw [appendUnique_of_not_among hAmong, hEq, List.append_assoc],
        hAdds.push (hSelf.2 last (List.mem_singleton_self last)) fun x hx => ?_⟩
      rw [Bool.eq_false_iff]
      intro hLike
      rw [hFound.mpr ⟨x, mem_append_of_sublist hAdds.inOrder hx, hLike⟩] at hAmong
      cases hAmong

theorem exists_adds_alike (items : List Json) (hObjects : ∀ o ∈ objects, o.isDocument = true) :
    ∃ added, objects.foldl appendUnique items = items ++ added ∧ Adds Json.alike items objects added :=
  exists_adds hObjects (fun o ho => Json.alike_self (hObjects o ho)) (fun _ _ _ => Json.alike_trans)
    fun _ _ _ _ => .rfl

theorem foldl_appendUnique_of_among (h : ∀ o ∈ objects, o.among items = true) :
    objects.foldl appendUnique items = items := by
  induction objects with
  | nil => rfl
  | cons o rest ih =>
    rw [List.foldl_cons, appendUnique_of_among (h o List.mem_cons_self),
      ih fun o' ho' => h o' (List.mem_cons_of_mem _ ho')]

/-! ### The laws -/

theorem currentItems_setField (raw : Keyed Json) (key : String) (items : List Json) :
    currentItems (setField raw key (.array items)) key = items := by
  rw [currentItems, setField, Assoc.get?_set, if_pos rfl]
  rfl

theorem setField_setField (raw : Keyed Json) (key : String) (first second : Json) :
    setField (setField raw key first) key second = setField raw key second :=
  Assoc.set_set raw (.string key) first second

theorem array_inj {items' : List Json}
    (h : setField raw key (.array items) = setField raw key (.array items')) : items = items' := by
  have hItems := congrArg (currentItems · key) h
  rwa [currentItems_setField, currentItems_setField] at hItems

theorem others_unchanged (raw : Keyed Json) (key : String) (content : Json) {name : Scalar}
    (h : name ≠ .string key) : Assoc.get? (setField raw key content) name = Assoc.get? raw name := by
  rw [setField, Assoc.get?_set, if_neg h.symm]

/-- What the laws say whatever objects are compared by, and what of them depends on it. -/
theorem listLaws_iff (hObjects : ∀ o ∈ objects, o.isDocument = true) :
    ListLaws like raw key objects ↔
      (∃ added, objects.foldl appendUnique (currentItems raw key) = currentItems raw key ++ added ∧
        Adds like (currentItems raw key) objects added) ∧
      ∀ item ∈ currentItems raw key, item.among objects = objects.any (like item) := by
  constructor
  · intro h
    obtain ⟨added, hAdds, hApply⟩ := h.addUnique
    refine ⟨⟨added, array_inj (Except.ok.inj hApply), hAdds⟩, fun item hItem => ?_⟩
    have hKept := congrArg (item ∈ ·) (array_inj (Except.ok.inj h.remove))
    simp only [List.mem_filter, hItem, true_and, eq_iff_iff] at hKept
    exact Bool.not_inj (Bool.eq_iff_iff.mpr hKept)
  · rintro ⟨⟨added, hEq, hAdds⟩, hRemoved⟩
    constructor
    case current =>
      intro items hField
      rw [currentItems, hField]
      rfl
    case noList =>
      intro hNone
      rw [currentItems]
      rcases hField : Assoc.get? raw (.string key) with - | j
      · rfl
      · cases j <;> first | rfl | exact (hNone _ hField).elim
    case addUnique => exact ⟨added, hAdds, by rw [apply, hEq]⟩
    case addUniqueAgain =>
      intro after hAfter
      cases hAfter
      rw [apply, currentItems_setField, setField_setField, foldl_appendUnique_of_among]
      exact fun o ho => among_iff.mpr (exists_alike_of_mem hObjects ho)
    case remove =>
      rw [apply, List.filter_congr fun item hItem => by rw [hRemoved item hItem]]
    case removeAfterAdd =>
      refine ⟨_, rfl, ?_⟩
      have hGone : (objects.filter fun item => !item.among objects) = [] := by
        rw [List.filter_eq_nil_iff]
        intro o ho
        rw [among_iff.mpr ⟨o, ho, Json.alike_self (hObjects o ho)⟩]
        exact Bool.false_ne_true
      rw [apply, apply, currentItems_setField, setField_setField, List.filter_append, hGone, List.append_nil]
    case others =>
      intro o ho
      simp only [List.mem_cons, List.not_mem_nil, or_false] at ho
      rcases ho with rfl | rfl | rfl <;> exact ⟨_, rfl, fun name hName => others_unchanged raw key _ hName⟩

theorem Adds.new_of_append {first second : List Json} (h : Adds like items objects (first ++ second)) :
    ∀ x ∈ items ++ first, ∀ y ∈ second, like x y = false := by
  obtain ⟨-, -, hPairs⟩ := List.pairwise_append.mp h.newToEarlier
  intro x hx y hy
  rcases List.mem_append.mp hx with hItem | hFirst
  · exact h.newToItems x hItem y (List.mem_append_right _ hy)
  · exact hPairs x hFirst y hy

section Agrees

variable {before after first second : List Json}

/-- What is added before an object has its turn, and what is added from then on. -/
theorem exists_adds_append (hBefore : ∀ x ∈ before, x.isDocument = true) (hAfter : ∀ x ∈ after, x.isDocument = true)
    (hEq : (before ++ after).foldl appendUnique items = items ++ added) :
    ∃ first second, added = first ++ second ∧ before.foldl appendUnique items = items ++ first ∧
      Adds Json.alike items before first ∧ Adds Json.alike (items ++ first) after second := by
  obtain ⟨first, hFirst, hAdds⟩ := exists_adds_alike items hBefore
  obtain ⟨second, hSecond, hAdds'⟩ := exists_adds_alike (items ++ first) hAfter
  rw [List.foldl_append, hFirst, hSecond, List.append_assoc] at hEq
  exact ⟨first, second, (List.append_cancel_left hEq).symm, hFirst, hAdds, hAdds'⟩

theorem exists_kept (hBefore : ∀ x ∈ before, x.isDocument = true)
    (hFirst : before.foldl appendUnique items = items ++ first) {x : Json} (hx : x ∈ items ++ before)
    (hAlike : x.alike o = true) : ∃ y ∈ items ++ first, y.alike o = true := by
  rw [← hFirst]
  exact among_iff.mp ((among_foldl_iff hBefore).mpr ⟨x, hx, hAlike⟩)

variable (hDocument : ∀ x ∈ items ++ before, x.isDocument = true) (hRest : ∀ x ∈ o :: after, x.isDocument = true)
  (hFirst : before.foldl appendUnique items = items ++ first) (hAdds : Adds Json.alike items before first)
  (hAdds' : Adds Json.alike (items ++ first) (o :: after) second)
  (hValues : Adds Json.sameValue items (before ++ o :: after) (first ++ second))

include hDocument hRest hFirst hAdds hAdds' hValues

theorem exists_sameValue_of_alike {x : Json} (hx : x ∈ items ++ before) (hAlike : x.alike o = true) :
    ∃ z ∈ items ++ before, z.sameValue o = true := by
  obtain ⟨y, hy, hLike⟩ := exists_kept (List.forall_mem_append.mp hDocument).2 hFirst hx hAlike
  obtain ⟨z, hz, hSame⟩ := hValues.covers o (List.mem_append_right _ List.mem_cons_self)
  rw [← List.append_assoc] at hz
  rcases List.mem_append.mp hz with hEarlier | hLater
  · exact ⟨z, mem_append_of_sublist hAdds.inOrder hEarlier, hSame⟩
  · have hz := hRest z (hAdds'.inOrder.subset hLater)
    cases hScalar : o.isScalar with
    | true =>
      -- `o` would not have gone in, and nothing like it
      have hLike' := Json.alike_symm hz (Json.alike_of_sameValue hz hScalar hSame)
      have hNew := hAdds'.newToItems y hy z hLater
      rw [Json.alike_trans (hRest o List.mem_cons_self) hLike hLike'] at hNew
      cases hNew
    | false =>
      have hSelf := Json.sameValue_trans hz (Json.sameValue_symm hz hSame) hSame
      have hy' := mem_append_of_sublist hAdds.inOrder hy
      exact ⟨y, hy', Json.sameValue_of_alike (hDocument y hy') hScalar hSelf hLike⟩

theorem exists_alike_of_sameValue {x : Json} (hx : x ∈ items ++ before) (hSame : x.sameValue o = true) :
    ∃ z ∈ items ++ before, z.alike o = true := by
  by_contra hNone
  have hxDocument := hDocument x hx
  have ho := hRest o List.mem_cons_self
  have hSame' := Json.sameValue_symm hxDocument hSame
  have hScalar : o.isScalar = false := by
    rw [Bool.eq_false_iff]
    exact fun hScalar => hNone ⟨x, hx, Json.alike_of_sameValue hxDocument hScalar hSame⟩
  have hScalar' : x.isScalar = false := by
    rw [Bool.eq_false_iff]
    exact fun hScalar => hNone ⟨x, hx, Json.alike_symm ho (Json.alike_of_sameValue ho hScalar hSame')⟩
  -- one is kept for `x` and one for `o`, and both have the value of `x`
  obtain ⟨y, hy, hLike⟩ := exists_kept (List.forall_mem_append.mp hDocument).2 hFirst hx (Json.alike_self hxDocument)
  obtain ⟨z, hz, hLike'⟩ := hAdds'.covers o List.mem_cons_self
  rcases List.mem_append.mp hz with hEarlier | hLater
  · exact hNone ⟨z, mem_append_of_sublist hAdds.inOrder hEarlier, hLike'⟩
  · have hyDocument := hDocument y (mem_append_of_sublist hAdds.inOrder hy)
    have hz := hRest z (hAdds'.inOrder.subset hLater)
    have hFirstSame : y.sameValue x = true :=
      Json.sameValue_of_alike hyDocument hScalar' (Json.sameValue_trans ho hSame hSame') hLike
    have hSecondSame : z.sameValue o = true :=
      Json.sameValue_of_alike hz hScalar (Json.sameValue_trans hxDocument hSame' hSame) hLike'
    have hBoth := Json.sameValue_trans ho (Json.sameValue_trans hxDocument hFirstSame hSame)
      (Json.sameValue_symm hz hSecondSame)
    have hNew := hValues.new_of_append y hy z hLater
    rw [hBoth] at hNew
    cases hNew

end Agrees

/-- Had the equality of values found something else, one value would be in the list twice or not at all. -/
theorem agrees_of_adds (hItems : ∀ item ∈ items, item.isDocument = true)
    (hObjects : ∀ o ∈ objects, o.isDocument = true) (hEq : objects.foldl appendUnique items = items ++ added)
    (hValues : Adds Json.sameValue items objects added) {before after : List Json}
    (hSplit : objects = before ++ o :: after) : Agrees (items ++ before) o := by
  subst hSplit
  obtain ⟨hBefore, hRest⟩ := List.forall_mem_append.mp hObjects
  have hDocument : ∀ x ∈ items ++ before, x.isDocument = true := List.forall_mem_append.mpr ⟨hItems, hBefore⟩
  obtain ⟨first, second, rfl, hFirst, hAdds, hAdds'⟩ := exists_adds_append hBefore hRest hEq
  exact ⟨fun ⟨_, hx, hAlike⟩ => exists_sameValue_of_alike hDocument hRest hFirst hAdds hAdds' hValues hx hAlike,
    fun ⟨_, hx, hSame⟩ => exists_alike_of_sameValue hDocument hRest hFirst hAdds hAdds' hValues hx hSame⟩

theorem among_iff_alike {item : Json} (hItem : item.isDocument = true)
    (hObjects : ∀ o ∈ objects, o.isDocument = true) : item.among objects = true ↔ ∃ o ∈ objects, item.alike o = true :=
  among_iff.trans (exists_congr fun o => and_congr_right fun ho =>
    ⟨Json.alike_symm (hObjects o ho), Json.alike_symm hItem⟩)

/-- The laws hold of the equality of documents. They hold of the equality of values exactly when it finds
what the equality of documents finds. -/
theorem listLaws_iff_comparesByValue (raw : Keyed Json) (key : String) (objects : List Json)
    (hItems : ∀ item ∈ currentItems raw key, item.isDocument = true)
    (hObjects : ∀ o ∈ objects, o.isDocument = true) :
    ListLaws Json.alike raw key objects ∧
      (ListLaws Json.sameValue raw key objects ↔ ComparesByValue (currentItems raw key) objects) := by
  have hRemoved {like : Json → Json → Bool} {item : Json} (hItem : item ∈ currentItems raw key) :
      item.among objects = objects.any (like item) ↔
        ((∃ o ∈ objects, item.alike o = true) ↔ ∃ o ∈ objects, like item o = true) := by
    rw [Bool.eq_iff_iff, among_iff_alike (hItems item hItem) hObjects, List.any_eq_true]
  refine ⟨(listLaws_iff hObjects).mpr
    ⟨exists_adds_alike _ hObjects, fun item hItem => (hRemoved hItem).mpr .rfl⟩, ?_⟩
  rw [listLaws_iff hObjects]
  constructor
  · rintro ⟨⟨added, hEq, hAdds⟩, hRemove⟩
    refine ⟨fun o ho => ?_, fun before o after hSplit => agrees_of_adds hItems hObjects hEq hAdds hSplit,
      fun item hItem => (hRemoved hItem).mp (hRemove item hItem)⟩
    obtain ⟨x, hx, hSame⟩ := hAdds.covers o ho
    have hxDocument : x.isDocument = true :=
      (List.forall_mem_append.mpr ⟨hItems, hObjects⟩) x (mem_append_of_sublist hAdds.inOrder hx)
    exact Json.sameValue_trans hxDocument (Json.sameValue_symm hxDocument hSame) hSame
  · intro h
    exact ⟨exists_adds hObjects h.readable (fun _ _ _ => Json.sameValue_trans) h.adding,
      fun item hItem => (hRemoved hItem).mpr (h.removing item hItem)⟩

theorem comparesByValue_of_pairs (hObjects : ∀ o ∈ objects, o.isDocument = true)
    (h : ∀ x ∈ items ++ objects, ∀ o ∈ objects, x.alike o = x.sameValue o) : ComparesByValue items objects where
  readable o ho := by
    rw [← h o (List.mem_append_right _ ho) o ho, Json.alike_self (hObjects o ho)]
  adding before o after hSplit := by
    subst hSplit
    refine exists_congr fun x => and_congr_right fun hx => ?_
    rw [h x (mem_append_of_sublist (List.sublist_append_left _ _) hx) o (List.mem_append_right _ List.mem_cons_self)]
  removing item hItem :=
    exists_congr fun o => and_congr_right fun ho => by rw [h item (List.mem_append_left _ hItem) o ho]

def taggedNote : Keyed Json := [(.string "tags", .array [.string "a", .string "a", .bool true])]

theorem listLaws_iff_comparesByValue_tags :
    ListLaws Json.sameValue taggedNote "tags" [.string "b", .bool true, .string "b"] := by
  refine (listLaws_iff_comparesByValue taggedNote "tags" [.string "b", .bool true, .string "b"] (by decide)
    (by decide)).2.mpr (comparesByValue_of_pairs (by decide) ?_)
  decide +kernel

def flaggedNote : Keyed Json := [(.string "flags", .array [.number (.int 1)])]

/-- `true` does not go into a list that holds `1`, although no value of the list equals it. -/
theorem not_listLaws_oneAndTrue : ¬ ListLaws Json.sameValue flaggedNote "flags" [.bool true] := by
  intro h
  obtain ⟨added, hAdds, hApply⟩ := h.addUnique
  have hAmong : (Json.bool true).among [.number (.int 1)] = true := by decide +kernel
  have hList : [Json.bool true].foldl appendUnique [.number (.int 1)] = [.number (.int 1)] ++ added :=
    array_inj (Except.ok.inj hApply)
  rw [List.foldl_cons, appendUnique_of_among hAmong] at hList
  obtain rfl : added = [] := by simpa using hList
  obtain ⟨x, hx, hSame⟩ := hAdds.covers (.bool true) (List.mem_singleton_self _)
  obtain rfl : x = .number (.int 1) := List.mem_singleton.mp hx
  cases hSame

end RecordCache.Operation
