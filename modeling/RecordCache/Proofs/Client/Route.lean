import RecordCache.Proofs.Client.Reads
import RecordCache.Proofs.Client.Windows
import RecordCache.Proofs.Constraint.Local

/-!
# Where a query is answered

A query is answered from the cache just where a window applies, nothing that it asks for needs the server, and
every blob of the snapshot of its class can be used within the window. It makes no request of its own then, and
exactly one else.
-/

namespace RecordCache.Session

variable {κ α : Type} {s t u : Session κ α} {q : Query} {told : Option Json} {cached : List Record}

/-- The cache can answer the query from these records: a window applies after the last thing that the query was
told, within it the snapshot of the class can be used, and no part of the query needs the server. -/
structure Servable (s : Session κ α) (q : Query) (told : Option Json) (cached : List Record) : Prop where
  window : ∃ e n, s.registry.windowFor q.conditions.className told = some e ∧ e.numeric? = some n ∧
    s.disk.Snapshot q.conditions.className n cached
  includes : q.includes.keys = []
  judged : ∀ c, Constraint.Within c q.conditions → ¬ Constraint.ServerOnly c

/-- The session after the snapshot was read: the index, and so many records. -/
def looked (s : Session κ α) (q : Query) (n : Nat) : Session κ α :=
  { s with
    registry := (s.registry.store q.conditions.className q.freshness.json).2
    disk := { s.disk with accesses := s.disk.accesses + 1 + n } }

theorem allowsLocal_iff (q : Query) :
    q.allowsLocal = true ↔ q.freshness ≠ .never ∧ q.includes.keys = [] ∧
      ∀ c, Constraint.Within c q.conditions → ¬ Constraint.ServerOnly c := by
  rw [← Constraint.setAllowsLocal_iff, Query.allowsLocal]
  change _ ↔ _ ∧ _ ∧ q.conditions.allowsLocal = true
  cases hFreshness : q.freshness with
  | never => simp
  | asRegistered => simp [and_comm]
  | within window => simp [and_comm]

section Routes

variable (hFresh : q.freshness = Freshness.told told)
  (hTold : ∀ e, told = some e → e = .null ∨ e.numeric?.isSome) (hRegistry : s.registry.Consistent)
include hFresh hTold hRegistry

/-- The store of a query that a window applies to has read its snapshot. -/
theorem exists_store_servable (h : s.Servable q told cached) :
    q.allowsLocal = true ∧ ∃ ref,
      Runs (storeFor q.conditions.className q.freshness) s (.ok (some ref))
        { s with registry := (s.registry.store q.conditions.className q.freshness.json).2 } ∧
      Runs ref.store.loadAll s.disk (.ok cached) (s.looked q cached.length).disk := by
  obtain ⟨e, n, hWindow, hNumber, hSnapshot⟩ := h.window
  obtain ⟨hNever, ref, m, hRef, hName, hSame, hWithin⟩ := hRegistry.store_within hTold hWindow
  obtain rfl := Option.some.inj (hNumber.symm.trans hSame)
  rw [← hFresh] at hNever hRef
  have hLocal : q.allowsLocal = true := (allowsLocal_iff q).mpr ⟨hNever, h.includes, h.judged⟩
  have hStore := runs_store q.conditions.className q.freshness.json s
  rw [← storeFor_eq hLocal, hRef] at hStore
  obtain ⟨r, k, hLoad, -, hCount, hRecords⟩ := LocalStore.runs_loadAll_iff hWithin s.disk
  rw [hName] at hRecords
  obtain rfl := (hRecords cached).mpr hSnapshot
  obtain rfl := hCount cached rfl
  exact ⟨hLocal, ref, hStore, hLoad⟩

/-- A query that the cache can answer is answered there, once its sub-queries are resolved. -/
theorem runs_runLocal_servable (h : s.Servable q told cached) {r : Except Error ConstraintSet}
    (hResolve : Runs (q.conditions.resolveWith selectedValues) (s.looked q cached.length) r u)
    (hFails : FailsElsewhere r) :
    Runs (runLocal q) s (r >>= fun conditions => some <$> answerFrom { q with conditions } cached) u := by
  obtain ⟨hLocal, ref, hStore, hLoad⟩ := exists_store_servable hFresh hTold hRegistry h
  have hConditions := allowsLocal_conditions hLocal
  cases r with
  | ok resolved => exact runs_runLocal_matched hLocal (runs_matchLocalBy_resolved hConditions hStore hLoad hResolve)
  | error e =>
    have hMatch : Runs (matchLocal q.conditions q.freshness) s (.error e) u :=
      runs_matchLocalBy_unresolved hConditions hStore hLoad hResolve (hFails e rfl)
    rw [runLocal, hLocal]
    exact hMatch.bind_fail

/-- A query that the cache cannot answer is given up before anything is asked of the server. -/
theorem runs_runLocal_unservable (h : ∀ cached, ¬ s.Servable q told cached) :
    ∃ registry disk, Runs (runLocal q) s (.ok none) { s with registry, disk } := by
  cases hLocal : q.allowsLocal with
  | false => exact ⟨s.registry, s.disk, runs_runLocal_remote hLocal s⟩
  | true =>
    obtain ⟨hNever, hIncludes, hJudged⟩ := (allowsLocal_iff q).mp hLocal
    have hStore := runs_store q.conditions.className q.freshness.json s
    rw [← storeFor_eq hLocal] at hStore
    rw [hFresh] at hNever
    cases hWindow : s.registry.windowFor q.conditions.className told with
    | none =>
      have hNone := hRegistry.store_none hWindow hNever
      rw [← hFresh] at hNone
      rw [hNone] at hStore
      exact ⟨_, s.disk, runs_runLocal_unmatched hLocal (runs_matchLocalBy_remote hStore (.inl rfl))⟩
    | some e =>
      obtain ⟨-, ref, n, hRef, hName, hNumber, hWithin⟩ := hRegistry.store_within hTold hWindow
      rw [← hFresh] at hRef
      rw [hRef] at hStore
      obtain ⟨r, k, hLoad, hCache, -, hRecords⟩ := LocalStore.runs_loadAll_iff hWithin s.disk
      cases r with
      | ok cached =>
        have hSnapshot := (hRecords cached).mp rfl
        rw [hName] at hSnapshot
        exact absurd ⟨⟨e, n, hWindow, hNumber, hSnapshot⟩, hIncludes, hJudged⟩ (h cached)
      | error fault =>
        have hMatch : Runs (matchLocal q.conditions q.freshness) s (.ok none) _ :=
          runs_matchLocalBy_unread (allowsLocal_conditions hLocal) hStore hLoad (hCache fault rfl)
        exact ⟨_, _, runs_runLocal_unmatched hLocal hMatch⟩

/-- A query is answered from the cache just where the cache can answer it. Then its answer is what the snapshot
gives with the sub-queries resolved, and nothing is asked of the server but what they ask; else exactly one
request is made, for the query itself, and its answer is given. Either way no blob is written. -/
theorem routes (hSpeaks : s.Speaks) :
    (∀ cached, s.Servable q told cached → ∃ r u,
      Runs (q.conditions.resolveWith selectedValues) (s.looked q cached.length) r u ∧
        Runs (data q) s (r >>= fun conditions => answerFrom { q with conditions } cached) u ∧
        Runs (count q) s (r >>= fun conditions => countFrom { q with conditions } cached) u ∧
        (q.conditions.hasSubQueries = false → r = .ok q.conditions ∧ u.calls = s.calls)) ∧
    ((∀ cached, ¬ s.Servable q told cached) →
      (∀ call fields records, s.Answered q call fields → recordsIn fields = .ok records →
        ∃ t, Runs (data q) s (.ok (.found records)) t ∧ t.calls = s.calls ++ [call]) ∧
      ∀ call fields, s.Answered (asCount q) call fields →
        ∃ t, Runs (count q) s (.ok ((Assoc.get? fields "count").getD (.int 0))) t ∧ t.calls = s.calls ++ [call]) ∧
    (∀ r t, Runs (data q) s r t → ∃ k, t.disk = { s.disk with accesses := k }) ∧
    ∀ r t, Runs (count q) s r t → ∃ k, t.disk = { s.disk with accesses := k } := by
  refine ⟨?_, ?_, onlyReads_data q s, onlyReads_count q s⟩
  · intro cached hServable
    have hCount : s.Servable (asCount q) told cached := ⟨hServable.window, hServable.includes, hServable.judged⟩
    obtain ⟨r, u, hResolve⟩ := Runs.exists_run (q.conditions.resolveWith selectedValues) (s.looked q cached.length)
    have hGoesOn : GoesOn Speaks (q.conditions.resolveWith selectedValues : Work κ α ConstraintSet) :=
      Speaks.spreads.resolveSetWith q.conditions
    have hFails : FailsElsewhere r := (hGoesOn (s.looked q cached.length) r u hSpeaks hResolve).2
    have hLocal := runs_runLocal_servable hFresh hTold hRegistry hServable hResolve hFails
    have hLocalCount := runs_runLocal_servable (q := asCount q) hFresh hTold hRegistry hCount hResolve hFails
    refine ⟨r, u, hResolve, ?_, ?_, ?_⟩
    · cases r with
      | ok conditions => exact runs_data_some hLocal
      | error e => exact hLocal.bind_fail
    · cases r with
      | ok conditions => exact runs_count_some hLocalCount
      | error e => exact hLocalCount.bind_fail
    · intro hPlain
      obtain ⟨rfl, rfl⟩ := hResolve.unique (Constraint.runs_resolveSetWith_plain selectedValues _ hPlain)
      exact ⟨rfl, rfl⟩
  · intro hNone
    have hNoneCount (cached : List Record) : ¬ s.Servable (asCount q) told cached :=
      fun h => hNone cached ⟨h.window, h.includes, h.judged⟩
    obtain ⟨registry, disk, hLocal⟩ := runs_runLocal_unservable hFresh hTold hRegistry hNone
    obtain ⟨registry', disk', hLocalCount⟩ :=
      runs_runLocal_unservable (q := asCount q) hFresh hTold hRegistry hNoneCount
    exact ⟨fun call fields records hAnswered hRecords => runs_data_none hLocal hAnswered hRecords,
      fun call fields hAnswered => runs_count_none hLocalCount hAnswered⟩

end Routes

theorem consistent_marked (mark : Json) : (marked mark).registry.Consistent where
  numbers className window hWindow := by
    obtain ⟨-, rfl⟩ := Prod.mk.inj (List.mem_singleton.mp (Assoc.mem_of_get? hWindow))
    rfl
  kept _ _ hRef := nomatch hRef

theorem speaks_marked (mark : Json) : (marked mark).Speaks := by
  intro answer hMem call
  obtain rfl := List.mem_singleton.mp hMem
  exact .ret _

theorem servable_marked : (marked (.string "new")).Servable markedNew none [noteMarked (.string "new")] where
  window := by
    refine ⟨.int 60, .int 60, rfl, rfl, ?_⟩
    have hWithin : noteStore.Within (.int 60) := LocalStore.within_of_numeric rfl
    obtain ⟨r, k, hRun, -, -, hRecords⟩ := LocalStore.runs_loadAll_iff hWithin (marked (.string "new")).disk
    refine (hRecords _).mp (Except.toOption_eq_some_iff.mp ?_)
    have hSnapshot : (marked (.string "new")).snapshotFor markedNew = some [noteMarked (.string "new")] :=
      snapshotFor_marked rfl
    change ((noteStore.loadAll.run.run (marked (.string "new")).disk).1).toOption = _ at hSnapshot
    rwa [hRun] at hSnapshot
  includes := rfl
  judged := (Constraint.setAllowsLocal_iff markedNew.conditions).mp rfl

/-- The notes that are marked as new, from the server only. -/
def markedNewRemotely : Query := markedNew.trust (Freshness.told (some (.bool false)))

theorem routes_marked :
    (∃ t, Runs (data markedNew) (marked (.string "new")) (.ok (.found [noteMarked (.string "new")])) t ∧
      t.calls = []) ∧
    ∃ t, Runs (data markedNewRemotely) (marked (.string "new")) (.ok (.found [])) t ∧ t.calls.length = 1 := by
  have hRegistry := consistent_marked (.string "new")
  have hSpeaks := speaks_marked (.string "new")
  constructor
  · have hUntold : ∀ e, none = some e → e = Json.null ∨ e.numeric?.isSome := nofun
    have hRoutes := (routes (q := markedNew) rfl hUntold hRegistry hSpeaks).1
    obtain ⟨r, u, -, hData, -, hPlain⟩ := hRoutes _ servable_marked
    obtain ⟨rfl, hCalls⟩ := hPlain rfl
    exact ⟨u, hData, hCalls⟩
  · have hNumber : ∀ e, some (Json.bool false) = some e → e = .null ∨ e.numeric?.isSome := by
      rintro e ⟨⟩
      exact .inr rfl
    have hRoutes := (routes (q := markedNewRemotely) rfl hNumber hRegistry hSpeaks).2.1
    have hNone (cached : List Record) :
        ¬ (marked (.string "new")).Servable markedNewRemotely (some (.bool false)) cached := by
      rintro ⟨⟨e, n, hWindow, -⟩, -, -⟩
      cases hWindow
    obtain ⟨t, hRun, hCalls⟩ := (hRoutes hNone).1 _ _ _ (answered_marked _ markedNewRemotely rfl) rfl
    exact ⟨t, hRun, by rw [hCalls]; rfl⟩

end RecordCache.Session
