import RecordCache.Proofs.Value.Order
import RecordCache.Proofs.Value.StableSort
import RecordCache.Query.Order

/-!
# Sorting records by their fields

Where the fields of an order have a place, a record comes before another when the first field in which they
differ says so, and sorting is the stable sort by that.
-/

namespace RecordCache

/-- What a field of a record is ordered by, if it can be read. -/
def Record.sortKey? (r : Record) (key : String) : Option SortKey := (r.typed key >>= Value.sortKey).toOption

namespace Direction

variable {x y z : SortKey}

def puts : Direction → SortKey → SortKey → Bool
  | .ascending, x, y => x.before y
  | .descending, x, y => y.before x

theorem puts_asymm (d : Direction) (h : d.puts x y) : ¬ d.puts y x := by
  cases d with
  | ascending => exact SortKey.before_asymm h
  | descending => exact SortKey.before_asymm h

theorem puts_or_puts (d : Direction) (hPlace : y.HasPlace) (h : d.puts x z) : d.puts x y ∨ d.puts y z := by
  cases d with
  | ascending => exact SortKey.before_or_before hPlace h
  | descending => exact (SortKey.before_or_before hPlace h).symm

end Direction

namespace SortOrder

variable {a b c r : Record} {keys : Fields Direction}

/-- The first field in which two records differ puts one before the other. -/
def precedes : Fields Direction → Record → Record → Bool
  | [], _, _ => false
  | (key, direction) :: rest, a, b =>
    match a.sortKey? key, b.sortKey? key with
    | some x, some y => direction.puts x y || (!direction.puts y x && precedes rest a b)
    | _, _ => false

/-- Every field of the order has a place. -/
def Sortable (keys : Fields Direction) (r : Record) : Prop :=
  ∀ e ∈ keys, ∃ x, r.sortKey? e.1 = some x ∧ x.HasPlace

theorem precedes_cons {key : String} {direction : Direction} {x y : SortKey} (hx : a.sortKey? key = some x)
    (hy : b.sortKey? key = some y) (rest : Fields Direction) :
    precedes ((key, direction) :: rest) a b = (direction.puts x y || (!direction.puts y x && precedes rest a b)) := by
  rw [precedes, hx, hy]

theorem precedes_asymm (ha : Sortable keys a) (hb : Sortable keys b) (h : precedes keys a b) : ¬ precedes keys b a := by
  induction keys with
  | nil => cases h
  | cons e rest ih =>
    obtain ⟨⟨x, hx, -⟩, haRest⟩ := List.forall_mem_cons.mp ha
    obtain ⟨⟨y, hy, -⟩, hbRest⟩ := List.forall_mem_cons.mp hb
    rw [precedes_cons hx hy] at h
    rw [precedes_cons hy hx]
    simp only [Bool.or_eq_true, Bool.and_eq_true, Bool.not_eq_true', not_or, not_and] at h ⊢
    rcases h with hFirst | ⟨hTie, hRest⟩
    · exact ⟨e.2.puts_asymm hFirst, fun hNot => absurd hFirst (by simp [hNot])⟩
    · exact ⟨by simp [hTie], fun _ => ih haRest hbRest hRest⟩

theorem precedes_or_precedes (ha : Sortable keys a) (hb : Sortable keys b) (hc : Sortable keys c)
    (h : precedes keys a c) : precedes keys a b ∨ precedes keys b c := by
  induction keys with
  | nil => cases h
  | cons e rest ih =>
    obtain ⟨⟨x, hx, hxPlace⟩, haRest⟩ := List.forall_mem_cons.mp ha
    obtain ⟨⟨y, hy, hyPlace⟩, hbRest⟩ := List.forall_mem_cons.mp hb
    obtain ⟨⟨z, hz, hzPlace⟩, hcRest⟩ := List.forall_mem_cons.mp hc
    rw [precedes_cons hx hz] at h
    rw [precedes_cons hx hy, precedes_cons hy hz]
    simp only [Bool.or_eq_true, Bool.and_eq_true, Bool.not_eq_true'] at h ⊢
    rcases h with hFirst | ⟨hTie, hRest⟩
    · exact (e.2.puts_or_puts hyPlace hFirst).imp .inl .inl
    · have hNot : ¬ e.2.puts z x := by simp [hTie]
      rcases ih haRest hbRest hcRest hRest with hLeft | hRight
      · by_cases hBack : e.2.puts y x
        · exact .inr (.inl ((e.2.puts_or_puts hzPlace hBack).resolve_right hNot))
        · exact .inl (.inr ⟨by simpa using hBack, hLeft⟩)
      · by_cases hBack : e.2.puts z y
        · exact .inl (.inl ((e.2.puts_or_puts hxPlace hBack).resolve_left hNot))
        · exact .inr (.inr ⟨by simpa using hBack, hRight⟩)

theorem preordersOn {records : List Record} (h : ∀ r ∈ records, Sortable keys r) :
    StableSort.PreordersOn (fun a b => !precedes keys b a) records := by
  constructor
  · intro a ha b hb c hc hab hbc
    simp only [Bool.not_eq_true'] at hab hbc ⊢
    by_contra hAfter
    rcases precedes_or_precedes (h c hc) (h b hb) (h a ha) (by simpa using hAfter) with hcb | hba
    · simp [hcb] at hbc
    · simp [hba] at hab
  · intro a ha b hb
    by_cases hab : precedes keys b a
    · simp [precedes_asymm (h b hb) (h a ha) hab]
    · simp [hab]

/-- -1 where the first comes before the second, 1 where it comes after, else 0. -/
def sign (before after : Bool) : Int := if before then -1 else if after then 1 else 0

theorem sign_neg_iff {before after : Bool} : sign before after < 0 ↔ before = true := by
  cases before <;> cases after <;> decide

theorem sign_eq_zero_iff {before after : Bool} : sign before after = 0 ↔ before = false ∧ after = false := by
  cases before <;> cases after <;> decide

theorem sign_le_zero_iff {before after : Bool} (h : before = true → after = false) :
    sign before after ≤ 0 ↔ after = false := by
  cases before <;> cases after <;> simp_all [sign]

theorem sign_swap {before after : Bool} (h : before = true → after = false) : sign after before = -sign before after := by
  cases before <;> cases after <;> simp_all [sign]

theorem compareOn_eq {key : String} (direction : Direction) {x y : SortKey} (hx : a.sortKey? key = some x)
    (hy : b.sortKey? key = some y) (hxPlace : x.HasPlace) (hyPlace : y.HasPlace) :
    compareOn a b key direction = .ok (sign (direction.puts x y) (direction.puts y x)) := by
  obtain ⟨v, hv, hxKey⟩ := Except.bind_eq_ok.mp (Except.toOption_eq_some_iff.mp hx)
  obtain ⟨w, hw, hyKey⟩ := Except.bind_eq_ok.mp (Except.toOption_eq_some_iff.mp hy)
  have hSame := SortKey.same_iff hxPlace hyPlace
  rw [compareOn, hv, hw]
  change (v.sortKey >>= fun first => w.sortKey >>= fun second => _) = _
  rw [hxKey, hyKey]
  cases direction with
  | ascending =>
    refine congrArg Except.ok ?_
    simp only [SortKey.compare, Direction.puts]
    by_cases hTie : x.same y
    · simp [hTie, hSame.mp hTie, sign]
    · have hDiffer := mt hSame.mpr hTie
      by_cases hBack : y.before x
      · simp [hTie, hBack, SortKey.before_asymm hBack, sign]
      · have hForth : x.before y := by_contra fun hNot => hDiffer ⟨hNot, hBack⟩
        simp [hTie, hBack, hForth, sign]
  | descending =>
    refine congrArg Except.ok ?_
    simp only [Direction.puts]
    by_cases hTie : x.same y
    · simp [hTie, hSame.mp hTie, sign]
    · have hDiffer := mt hSame.mpr hTie
      by_cases hBack : y.before x
      · simp [hTie, hBack, sign]
      · have hForth : x.before y := by_contra fun hNot => hDiffer ⟨hNot, hBack⟩
        simp [hTie, hBack, hForth, sign]

theorem compareBy_eq (ha : Sortable keys a) (hb : Sortable keys b) :
    compareBy a b keys = .ok (sign (precedes keys a b) (precedes keys b a)) := by
  induction keys with
  | nil => rfl
  | cons e rest ih =>
    obtain ⟨key, direction⟩ := e
    obtain ⟨⟨x, hx, hxPlace⟩, haRest⟩ := List.forall_mem_cons.mp ha
    obtain ⟨⟨y, hy, hyPlace⟩, hbRest⟩ := List.forall_mem_cons.mp hb
    rw [precedes_cons hx hy, precedes_cons hy hx, compareBy, compareOn_eq direction hx hy hxPlace hyPlace]
    change (if sign _ _ = 0 then compareBy a b rest else .ok (sign _ _)) = _
    rw [ih haRest hbRest]
    cases direction.puts x y <;> cases direction.puts y x <;> simp [sign]

/-- Records whose fields have a place are sorted stably by them. -/
theorem sort_eq {o : SortOrder} {records : List Record} (h : ∀ r ∈ records, Sortable o.keys r) :
    o.sort records = .ok (records.mergeSort fun a b => !precedes o.keys b a) := by
  have hDecides : StableSort.Decides (fun a b => return (← o.compare a b) < 0)
      (fun a b => !precedes o.keys b a) records := by
    intro a ha b hb
    refine Except.bind_eq_ok.mpr ⟨_, compareBy_eq (h a ha) (h b hb), congrArg Except.ok ?_⟩
    rw [Bool.not_not]
    exact Bool.eq_iff_iff.mpr (by simp [sign_neg_iff])
  rw [sort, stableSort_eq_mergeSort (preordersOn h) hDecides]
  rfl

/-! ### A total preorder -/

/-- The comparison is a total preorder among the records. -/
structure IsTotal (o : SortOrder) (records : List Record) : Prop where
  self : ∀ a ∈ records, o.compare a a = .ok 0
  swap : ∀ a ∈ records, ∀ b ∈ records, ∃ n, o.compare a b = .ok n ∧ o.compare b a = .ok (-n)
  trans : ∀ a ∈ records, ∀ b ∈ records, ∀ c ∈ records, ∀ m n, o.compare a b = .ok m → o.compare b c = .ok n →
    m ≤ 0 → n ≤ 0 → ∃ k, o.compare a c = .ok k ∧ k ≤ 0

/-- Every field of the order is the same in both records. -/
def tiedOn (keys : Fields Direction) (a b : Record) : Bool :=
  keys.all fun e =>
    match a.sortKey? e.1, b.sortKey? e.1 with
    | some x, some y => x.same y
    | _, _ => false

variable {o : SortOrder} {records sorted : List Record}

theorem isTotal (h : ∀ r ∈ records, Sortable o.keys r) : o.IsTotal records := by
  have hEq {a b : Record} (ha : a ∈ records) (hb : b ∈ records) :
      o.compare a b = .ok (sign (precedes o.keys a b) (precedes o.keys b a)) := compareBy_eq (h a ha) (h b hb)
  have hAsymm {a b : Record} (ha : a ∈ records) (hb : b ∈ records) (hForth : precedes o.keys a b = true) :
      precedes o.keys b a = false := by simpa using precedes_asymm (h a ha) (h b hb) hForth
  have hLe := preordersOn h
  refine ⟨fun a ha => ?_, fun a ha b hb => ⟨_, hEq ha hb, ?_⟩, ?_⟩
  · have hNot : precedes o.keys a a = false := Bool.eq_false_iff.mpr fun hSelf => by simp [hAsymm ha ha hSelf] at hSelf
    rw [hEq ha ha, hNot]
    rfl
  · rw [hEq hb ha, sign_swap (hAsymm ha hb)]
  · intro a ha b hb c hc m n hm hn hmLe hnLe
    obtain rfl := Except.ok.inj ((hEq ha hb).symm.trans hm)
    obtain rfl := Except.ok.inj ((hEq hb hc).symm.trans hn)
    refine ⟨_, hEq ha hc, (sign_le_zero_iff (hAsymm ha hc)).mpr ?_⟩
    have hab := (sign_le_zero_iff (hAsymm ha hb)).mp hmLe
    have hbc := (sign_le_zero_iff (hAsymm hb hc)).mp hnLe
    simpa using hLe.trans a ha b hb c hc (by simp [hab]) (by simp [hbc])

theorem tiedOn_iff (ha : Sortable keys a) (hb : Sortable keys b) :
    tiedOn keys a b = true ↔ precedes keys a b = false ∧ precedes keys b a = false := by
  induction keys with
  | nil => simp [tiedOn, precedes]
  | cons e rest ih =>
    obtain ⟨key, direction⟩ := e
    obtain ⟨⟨x, hx, hxPlace⟩, haRest⟩ := List.forall_mem_cons.mp ha
    obtain ⟨⟨y, hy, hyPlace⟩, hbRest⟩ := List.forall_mem_cons.mp hb
    have hHere : tiedOn ((key, direction) :: rest) a b = (x.same y && tiedOn rest a b) := by
      rw [tiedOn, List.all_cons, hx, hy]
      rfl
    have hSame : x.same y = true ↔ direction.puts x y = false ∧ direction.puts y x = false := by
      rw [SortKey.same_iff hxPlace hyPlace]
      cases direction <;> simp [Direction.puts, and_comm]
    rw [hHere, Bool.and_eq_true, hSame, ih haRest hbRest, precedes_cons hx hy, precedes_cons hy hx]
    cases direction.puts x y <;> cases direction.puts y x <;> simp

theorem compare_eq_zero_iff (ha : Sortable o.keys a) (hb : Sortable o.keys b) :
    o.compare a b = .ok 0 ↔ tiedOn o.keys a b = true := by
  rw [compare, compareBy_eq ha hb, tiedOn_iff ha hb, Except.ok.injEq, sign_eq_zero_iff]

/-! ### Key by key -/

theorem foldrM_sort (h : ∀ r ∈ records, Sortable keys r) :
    keys.foldrM (fun e sorted => sort ⟨[e]⟩ sorted) records =
      .ok (records.mergeSort fun a b => !precedes keys b a) := by
  induction keys with
  | nil =>
    have hSorted : records.Pairwise fun a b => !precedes [] b a :=
      List.pairwise_of_forall fun _ _ => rfl
    rw [List.mergeSort_of_pairwise hSorted]
    rfl
  | cons e rest ih =>
    have hFirst : ∀ r ∈ records, Sortable [e] r := fun r hr =>
      List.forall_mem_cons.mpr ⟨(List.forall_mem_cons.mp (h r hr)).1, nofun⟩
    have hRest : ∀ r ∈ records, Sortable rest r := fun r hr => (List.forall_mem_cons.mp (h r hr)).2
    rw [List.foldrM_cons, ih hRest]
    change sort ⟨[e]⟩ _ = _
    rw [sort_eq fun r hr => hFirst r (List.mem_mergeSort.mp hr),
      StableSort.mergeSort_thenBy (preordersOn hFirst) (preordersOn hRest)]
    refine congrArg Except.ok (StableSort.mergeSort_congr fun a ha b hb => ?_)
    obtain ⟨x, hx, -⟩ := h a ha e List.mem_cons_self
    obtain ⟨y, hy, -⟩ := h b hb e List.mem_cons_self
    simp only [StableSort.thenBy, precedes_cons hy hx, precedes_cons hx hy]
    cases e.2.puts x y <;> cases e.2.puts y x <;> simp [precedes]

/-- The list has the same records in order, and those that tie as they came. -/
structure SortsTo (o : SortOrder) (records sorted : List Record) : Prop where
  perm : sorted.Perm records
  inOrder : sorted.Pairwise fun a b => ∃ n, o.compare a b = .ok n ∧ n ≤ 0
  ties : ∀ a ∈ records, sorted.filter (tiedOn o.keys a) = records.filter (tiedOn o.keys a)

/-- Where every field of the order has a place, the records are compared by a total preorder, by which exactly
those tie that are the same in every field, and sorting by it is stable. It comes to the same as sorting by one
field after another, the last one first. -/
theorem sort_stable (h : ∀ r ∈ records, Sortable o.keys r) :
    o.IsTotal records ∧
      (∀ a ∈ records, ∀ b ∈ records, o.compare a b = .ok 0 ↔ tiedOn o.keys a b = true) ∧
      ∃ sorted, o.sort records = .ok sorted ∧ o.SortsTo records sorted ∧
        o.keys.foldrM (fun e sorted => sort ⟨[e]⟩ sorted) records = .ok sorted := by
  have hTied {a b : Record} (ha : a ∈ records) (hb : b ∈ records) :
      StableSort.tied (fun a b => !precedes o.keys b a) a b = tiedOn o.keys a b := by
    rw [Bool.eq_iff_iff, tiedOn_iff (h a ha) (h b hb), StableSort.tied_iff, Bool.not_eq_true', Bool.not_eq_true', and_comm]
  obtain ⟨hInOrder, hTies⟩ := (preordersOn h).arranges
  refine ⟨isTotal h, fun a ha b hb => compare_eq_zero_iff (h a ha) (h b hb), _, sort_eq h, ?_, foldrM_sort h⟩
  refine ⟨List.mergeSort_perm _ _, hInOrder.imp_of_mem fun {a b} ha hb hLe => ?_, fun a ha => ?_⟩
  · have ha := h a (List.mem_mergeSort.mp ha)
    have hb := h b (List.mem_mergeSort.mp hb)
    refine ⟨_, compareBy_eq ha hb, (sign_le_zero_iff fun hForth => ?_).mpr (by simpa using hLe)⟩
    simpa using precedes_asymm ha hb hForth
  · rw [← List.filter_congr fun b hb => hTied ha hb,
      ← List.filter_congr fun b hb => hTied ha (List.mem_mergeSort.mp hb)]
    exact hTies a ha

/-- By kind, falling, and then by title. -/
def byKind : SortOrder := ⟨[("kind", .descending), ("title", .ascending)]⟩

def entry (id : String) (kind : Json) : Record :=
  Record.ofFields [("objectId", .string id), ("kind", kind), ("title", .string "x")]

/-- Kinds of several types, one of which comes twice. -/
def entries : List Record := [entry "a" (.string "b"), entry "b" .null, entry "c" (.string "b"), entry "d" (.bool true)]

theorem sort_stable_entries : (∀ r ∈ entries, Sortable byKind.keys r) ∧
    byKind.SortsTo entries [entry "d" (.bool true), entry "a" (.string "b"), entry "c" (.string "b"), entry "b" .null] ∧
    byKind.compare (entry "a" (.string "b")) (entry "c" (.string "b")) = .ok 0 := by
  have hEntry (id : String) {kind : Json} {x : SortKey} (hKind : (entry id kind).sortKey? "kind" = some x)
      (hPlace : x.HasPlace) : Sortable byKind.keys (entry id kind) :=
    List.forall_mem_cons.mpr ⟨⟨x, hKind, hPlace⟩, List.forall_mem_cons.mpr ⟨⟨.text "x", rfl, trivial⟩, nofun⟩⟩
  have hSortable : ∀ r ∈ entries, Sortable byKind.keys r := by
    simp only [entries, List.forall_mem_cons]
    exact ⟨hEntry _ rfl trivial, hEntry _ rfl trivial, hEntry _ rfl trivial, hEntry _ rfl trivial, nofun⟩
  have hSort : byKind.sort entries =
      .ok [entry "d" (.bool true), entry "a" (.string "b"), entry "c" (.string "b"), entry "b" .null] := by cbv
  obtain ⟨-, hTies, sorted, hSorted, hStable, -⟩ := sort_stable hSortable
  obtain rfl := Except.ok.inj (hSort.symm.trans hSorted)
  exact ⟨hSortable, hStable, (hTies _ (by simp [entries]) _ (by simp [entries])).mpr (by cbv)⟩

end SortOrder

end RecordCache
