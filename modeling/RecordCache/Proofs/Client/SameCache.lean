import RecordCache.Proofs.Client.Route

/-!
# Searching the same cache again

A query leaves the windows of the classes and the blobs as they are, so what the cache can answer once it can
answer again. A search whose sub-queries are all answered there comes to the same every time.
-/

namespace RecordCache.Session

variable {κ α β γ : Type} {s t u : Session κ α} {q : Query} {told : Option Json} {cached : List Record}

/-- The same windows, and the same blobs, read some more times. -/
structure SameCache (s t : Session κ α) : Prop where
  windows : t.registry.windows = s.registry.windows
  consistent : s.registry.Consistent → t.registry.Consistent
  disk : ∃ k, t.disk = { s.disk with accesses := k }

namespace SameCache

theorem refl (s : Session κ α) : SameCache s s := ⟨rfl, id, s.disk.accesses, rfl⟩

theorem trans (h : SameCache s t) (h' : SameCache t u) : SameCache s u :=
  ⟨h'.windows.trans h.windows, h'.consistent ∘ h.consistent, LocalStore.OnlyReads.trans _ _ _ h.disk h'.disk⟩

theorem store (s : Session κ α) (className : String) (window : Json) :
    SameCache s { s with registry := (s.registry.store className window).2 } := by
  refine ⟨?_, fun h => h.store className window, s.disk.accesses, rfl⟩
  rw [Registry.store]
  split
  · rw [Registry.ownStore]
    split <;> rfl
  · rfl

theorem looked (s : Session κ α) (q : Query) (read : Nat) : SameCache s (s.looked q read) :=
  (store s _ _).trans ⟨rfl, id, _, rfl⟩

theorem spreads : Spreads fun β (work : Work κ α β) => Moves SameCache work :=
  Spreads.moves (fun _ _ _ => trans)
    (fun s _ h => ⟨h.2 ▸ rfl, fun hConsistent => h.2.symm ▸ hConsistent, s.disk.accesses, h.1⟩) store
    fun _ k => ⟨rfl, id, k, rfl⟩

end SameCache

/-- However often the disk was read, the cache can answer the query from these records. -/
def AlwaysServable (s : Session κ α) (q : Query) (told : Option Json) (cached : List Record) : Prop :=
  ∀ k, Servable { s with disk := { s.disk with accesses := k } } q told cached

namespace AlwaysServable

theorem servable (h : s.AlwaysServable q told cached) : s.Servable q told cached := h s.disk.accesses

theorem again (h : s.AlwaysServable q told cached) (hSame : SameCache s t) : t.AlwaysServable q told cached := by
  intro k
  obtain ⟨j, hDisk⟩ := hSame.disk
  obtain ⟨e, n, hWindow, hNumber, hSnapshot⟩ := (h k).window
  refine ⟨⟨e, n, ?_, hNumber, ?_⟩, (h k).includes, (h k).judged⟩
  · rw [← hWindow]
    simp only [Registry.windowFor.eq_def, hSame.windows]
  · rw [hDisk]
    exact hSnapshot

end AlwaysServable

/-! ### Sub-queries -/

/-- From every session with this cache the work comes to the same, and leaves one. -/
def Repeats (s : Session κ α) (work : Work κ α β) : Prop :=
  ∃ r, FailsElsewhere r ∧ ∀ t, SameCache s t → ∃ u, Runs work t r u ∧ SameCache s u

/-- The query that a sub-query makes of its inner set. -/
def searching (inner : ConstraintSet) : Query := { className := inner.className, conditions := inner }

/-- Every sub-query can be answered from the cache. -/
def AnswersAll (s : Session κ α) (inners : List ConstraintSet) : Prop :=
  ∀ inner ∈ inners, ∃ cached, s.AlwaysServable (searching inner) none cached

namespace Repeats

theorem ret (b : β) : Repeats s (pure b : Work κ α β) := ⟨.ok b, .ret b, fun t ht => ⟨t, .ret b t, ht⟩⟩

theorem bind {work : Work κ α β} {next : β → Work κ α γ} (h : Repeats s work) (hNext : ∀ b, Repeats s (next b)) :
    Repeats s (work >>= next) := by
  obtain ⟨r, hFails, hRuns⟩ := h
  cases r with
  | error e =>
    refine ⟨.error e, .fail (hFails e rfl), fun t ht => ?_⟩
    obtain ⟨u, hRun, hu⟩ := hRuns t ht
    exact ⟨u, hRun.bind_fail, hu⟩
  | ok b =>
    obtain ⟨r', hFails', hRuns'⟩ := hNext b
    refine ⟨r', hFails', fun t ht => ?_⟩
    obtain ⟨u, hRun, hu⟩ := hRuns t ht
    obtain ⟨v, hRun', hv⟩ := hRuns' u hu
    exact ⟨v, hRun.bind hRun', hv⟩

/-- What the cache can answer is not asked of the server. -/
theorem matchLocalBy {inner : ConstraintSet} {resolving : Work κ α ConstraintSet}
    (hConsistent : s.registry.Consistent)
    (hServable : s.AlwaysServable (searching inner) none cached) (hResolving : Repeats s resolving) :
    ∃ r, FailsElsewhere r ∧ ∀ t, SameCache s t →
      ∃ u, Runs (Session.matchLocalBy inner .asRegistered resolving) t (some <$> r) u ∧ SameCache s u := by
  obtain ⟨r, hFails, hRuns⟩ := hResolving
  refine ⟨r >>= fun resolved => resolved.filter cached,
    hFails.bind fun resolved => ConstraintSet.failsElsewhere_filter _ _, fun t ht => ?_⟩
  have hUntold : ∀ e, none = some e → e = Json.null ∨ e.numeric?.isSome := nofun
  obtain ⟨hLocal, ref, hStore, hLoad⟩ :=
    exists_store_servable rfl hUntold (ht.consistent hConsistent) (hServable.again ht).servable
  obtain ⟨u, hRun, hu⟩ := hRuns _ (ht.trans (SameCache.looked t (searching inner) cached.length))
  refine ⟨u, ?_, hu⟩
  cases r with
  | ok resolved => exact runs_matchLocalBy_resolved (allowsLocal_conditions hLocal) hStore hLoad hRun
  | error e => exact runs_matchLocalBy_unresolved (allowsLocal_conditions hLocal) hStore hLoad hRun (hFails e rfl)

theorem selectedValues {inner : ConstraintSet} {resolving : Work κ α ConstraintSet}
    (hConsistent : s.registry.Consistent) (key : String)
    (hServable : s.AlwaysServable (searching inner) none cached) (hResolving : Repeats s resolving) :
    Repeats s (Session.selectedValues key inner resolving) := by
  obtain ⟨r, hFails, hRuns⟩ := matchLocalBy hConsistent hServable hResolving
  refine ⟨r >>= fun found => (valuesOf key found).mapError Error.data,
    hFails.bind fun found => FailsElsewhere.ofData _, fun t ht => ?_⟩
  obtain ⟨u, hRun, hu⟩ := hRuns t ht
  refine ⟨u, ?_, hu⟩
  cases r with
  | ok found => exact hRun.bind (.bind (.ret found u) (runs_ofExcept _ u))
  | error e => exact hRun.bind_fail

mutual

theorem resolveWith (hConsistent : s.registry.Consistent) : ∀ {c : Constraint},
    s.AnswersAll (Constraint.innerSets c) → Repeats s (Constraint.resolveWith Session.selectedValues c)
  | .equalTo _ _ _, _ => ret _
  | .greaterThan _ _, _ => ret _
  | .lessThan _ _, _ => ret _
  | .present _ _, _ => ret _
  | .matching _ _, _ => ret _
  | .oneOf _ _, _ => ret _
  | .noneOf _ _, _ => ret _
  | .relatedTo _ _, _ => ret _
  | .either left right, h => by
    obtain ⟨hLeft, hRight⟩ := List.forall_mem_append.mp h
    rw [Constraint.resolveWith]
    exact (resolveSetWith hConsistent hLeft).bind fun left =>
      (resolveSetWith hConsistent hRight).bind fun right => ret _
  | .selected key matchKey inner, h => by
    obtain ⟨⟨cached, hInner⟩, hDeep⟩ := List.forall_mem_cons.mp h
    rw [Constraint.resolveWith]
    exact (selectedValues hConsistent matchKey hInner (resolveSetWith hConsistent hDeep)).bind fun values => ret _
  | .notSelected key matchKey inner, h => by
    obtain ⟨⟨cached, hInner⟩, hDeep⟩ := List.forall_mem_cons.mp h
    rw [Constraint.resolveWith]
    exact (selectedValues hConsistent matchKey hInner (resolveSetWith hConsistent hDeep)).bind fun values => ret _

theorem resolveSetWith (hConsistent : s.registry.Consistent) : ∀ {c : Conjunction Constraint},
    s.AnswersAll (Constraint.setInnerSets c) → Repeats s (Constraint.resolveSetWith Session.selectedValues c)
  | ⟨_, constraints⟩, h => by
    rw [Constraint.resolveSetWith]
    exact (resolveAllWith hConsistent h).bind fun constraints => ret _

theorem resolveAllWith (hConsistent : s.registry.Consistent) : ∀ {constraints : List Constraint},
    s.AnswersAll (Constraint.allInnerSets constraints) →
      Repeats s (Constraint.resolveAllWith Session.selectedValues constraints)
  | [], _ => ret []
  | c :: rest, h => by
    obtain ⟨hFirst, hRest⟩ := List.forall_mem_append.mp h
    rw [Constraint.resolveAllWith]
    exact (resolveWith hConsistent hFirst).bind fun c => (resolveAllWith hConsistent hRest).bind fun rest => ret _

end

end Repeats

end RecordCache.Session
