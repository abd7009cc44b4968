import RecordCache.Proofs.LocalStore.Blobs

/-!
# Any disk

Whatever a disk holds and whichever accesses fail, reading a snapshot gives records or fails in the cache,
as long as the store can tell the age of a blob. A write is given up at worst.
-/

namespace RecordCache

namespace LocalStore

variable {α β : Type} {s : LocalStore}

/-- Every age is told from the window. -/
def TellsAge (s : LocalStore) : Prop := ∀ age, ∃ stale, s.isStale age = .ok stale

theorem tellsAge_of_numeric (h : s.window.numeric?.isSome) : s.TellsAge :=
  fun age => ⟨_, isStale_eq h age⟩

/-- Whatever the disk does, the work fails in the cache only. -/
def FailsSoftly (work : Serving α) : Prop := ∀ d r d', Runs work d r d' → Cached r

namespace FailsSoftly

theorem of_succeeds {work : Serving α} (h : ∀ d, ∃ a d', Runs work d (.ok a) d') : FailsSoftly work := by
  intro d r d' hRun e hError
  obtain ⟨a, d₁, hOk⟩ := h d
  subst hError
  cases (hRun.unique hOk).1

theorem ret (a : α) : FailsSoftly (pure a) := of_succeeds fun d => ⟨a, d, .ret a d⟩

theorem fail {e : Error} (h : e.isCache = true) : FailsSoftly (throw e : Serving α) := by
  intro d r d' hRun other hError
  subst hError
  cases (hRun.unique (.fail e d)).1
  exact h

theorem bind {work : Serving α} {next : α → Serving β} (h : FailsSoftly work)
    (hNext : ∀ a, FailsSoftly (next a)) :
    FailsSoftly (work >>= next) := by
  intro d r d' hRun
  obtain ⟨a, d₁, -, hRest⟩ | ⟨e, rfl, hFirst⟩ := Runs.bind_iff.mp hRun
  · exact hNext a d₁ r d' hRest
  · intro other hOther
    cases hOther
    exact h d _ d' hFirst e rfl

theorem ofOption (found? : Option α) {e : Error} (h : e.isCache = true) :
    FailsSoftly (match found? with
      | some value => pure value
      | none => throw e) := by
  cases found? with
  | some value => exact ret value
  | none => exact fail h

theorem map {work : Serving α} (f : α → β) (h : FailsSoftly work) : FailsSoftly (f <$> work) := by
  rw [map_eq_pure_bind]
  exact h.bind fun a => ret (f a)

theorem mapM {f : α → Serving β} (h : ∀ a, FailsSoftly (f a)) (xs : List α) : FailsSoftly (xs.mapM f) := by
  induction xs with
  | nil => exact ret []
  | cons x rest ih =>
    rw [List.mapM_cons]
    exact (h x).bind fun y => ih.bind fun ys => ret (y :: ys)

theorem forM {f : α → Serving Unit} {xs : List α} (h : ∀ x ∈ xs, FailsSoftly (f x)) : FailsSoftly (xs.forM f) := by
  induction xs with
  | nil => exact ret ()
  | cons x rest ih => exact (h x List.mem_cons_self).bind fun _ => ih fun y hy => h y (List.mem_cons_of_mem x hy)

theorem access (key : Json) (work : DiskWork α) : FailsSoftly (s.access key work) := by
  intro d r d' hRun e hError
  obtain ⟨result, d₁, hWork⟩ := Runs.exists_run work d
  obtain ⟨rfl, -⟩ := hRun.unique (runs_access key hWork)
  cases result with
  | ok a => cases hError
  | error fault =>
    cases hError
    rfl

theorem load (hAge : s.TellsAge) (key : Json) (read : Json → Option α)
    (expected : String) :
    FailsSoftly (s.load key read expected) := by
  rw [LocalStore.load]
  refine (access key _).bind fun stored? => ?_
  cases stored? with
  | none => exact fail rfl
  | some stored =>
    refine bind (of_succeeds fun d => ⟨d, d, .state d⟩) fun disk => ?_
    obtain ⟨old, hOld⟩ := hAge (disk.now - stored.mtime)
    simp only [hOld]
    refine bind (of_succeeds fun d => ⟨old, d, .ofExcept (.ok old) d⟩) fun stale => ?_
    split
    · exact (fail rfl).bind fun _ => ofOption _ rfl
    · exact ofOption _ rfl

theorem get (hAge : s.TellsAge) (id : Json) : FailsSoftly (s.get id) := (load hAge id _ _).map _

theorem loadAll (hAge : s.TellsAge) : FailsSoftly s.loadAll :=
  (load hAge _ _ _).bind fun ids => mapM (fun id => get hAge (.string id)) ids

theorem save (key : Json) {j : Json} (hWritable : j.isWritable = true) : FailsSoftly (s.save key j) := by
  rw [LocalStore.save, hWritable]
  exact access _ _

theorem saveRecord {r : Record} (hWritable : r.json.isWritable = true) : FailsSoftly (s.saveRecord r) :=
  save _ hWritable

theorem exists_whenServed {work : Serving α} (h : FailsSoftly work) (d : Disk) :
    ∃ found d', Runs (whenServed work) d (.ok found) d' := by
  obtain ⟨r, d', hRun⟩ := Runs.exists_run work d
  have hServed := runs_whenServed hRun
  cases r with
  | ok a => exact ⟨some a, d', hServed⟩
  | error e =>
    rw [served, if_pos (h d _ d' hRun e rfl)] at hServed
    exact ⟨none, d', hServed⟩

end FailsSoftly

theorem exists_persist {r : Record} (hWritable : r.json.isWritable = true) (d : Disk) :
    ∃ d', Runs (s.persist r false) d (.ok ()) d' := by
  obtain ⟨written, d', hSaved⟩ := (FailsSoftly.saveRecord (s := s) hWritable).exists_whenServed d
  rw [persist]
  refine ⟨d', hSaved.bind ?_⟩
  rw [Bool.and_false]
  exact .ret _ _

end LocalStore

end RecordCache
