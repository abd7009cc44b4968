import RecordCache.LocalStore
import RecordCache.Proofs.Disk.Access
import RecordCache.Proofs.Json.ReadBack

/-!
# The blobs of a store

What the operations of a store do, blob by blob. Reading from a disk whose reads work is a function of
the blobs and of the clock: `idsIn`, `recordIn` and `allIn` are what the index, a record and the whole
snapshot read as. A write or a removal that the disk refuses is given up.
-/

namespace RecordCache.LocalStore

variable {s : LocalStore} {d : Disk} {key : String}

/-- Too old to be used, in a window that is a number. -/
def outlived (s : LocalStore) (age : Float) : Bool :=
  match s.window.numeric? with
  | some seconds => seconds.less (.float age)
  | none => false

theorem isStale_eq (hWindow : s.window.numeric?.isSome) (age : Float) :
    s.isStale age = .ok (s.outlived age) := by
  obtain ⟨seconds, hSeconds⟩ := Option.isSome_iff_exists.mp hWindow
  rw [isStale, outlived, hSeconds]

/-! ### Readings -/

def reading {α : Type} (s : LocalStore) (d : Disk) (key : String) (read : Json → Option α)
    (expected : String) :
    Except Error α :=
  match d.blob s.className key with
  | none => .error (.cache (.notFound s.className (.string key)))
  | some stored =>
    if s.outlived (d.now - stored.mtime) then
      .error (.cache (.expired s.className (.string key) (d.now - stored.mtime)))
    else
      match stored.content.json?.bind read with
      | some value => .ok value
      | none => .error (.cache (.wrongFormat s.className (.string key) expected))

def idsIn (s : LocalStore) (d : Disk) : Except Error (List String) :=
  s.reading d ".list" (fun j => j.array?.bind fun items => items.mapM Json.string?) "a list of ids"

def recordIn (s : LocalStore) (d : Disk) (id : String) : Except Error Record :=
  Record.ofFields <$> s.reading d id Json.object? "an object"

def allIn (s : LocalStore) (d : Disk) : Except Error (List Record) := do (← s.idsIn d).mapM (s.recordIn d)

/-- The result, or a failure of the cache. -/
def Cached {α : Type} (r : Except Error α) : Prop := ∀ e, r = .error e → e.isCache = true

theorem runs_access {α : Type} {work : DiskWork α} {r : Except DiskFault α} {d' : Disk} (key : Json)
    (h : Runs work d r d') :
    Runs (s.access key work) d (r.mapError fun fault => .cache (.storage s.className key fault)) d' := by
  have hStep : (s.access key work).run.run d =
      ((work.run.run d).1.mapError fun fault => .cache (.storage s.className key fault),
        (work.run.run d).2) := rfl
  rw [Runs, hStep, h]

/-- What is given up when it fails in the cache. -/
def served {α : Type} : Except Error α → Except Error (Option α)
  | .ok a => .ok (some a)
  | .error e => if e.isCache then .ok none else .error e

theorem runs_whenServed {α : Type} {work : Serving α} {r : Except Error α} {d' : Disk}
    (h : Runs work d r d') :
    Runs (whenServed work) d (served r) d' := by
  cases r with
  | ok a => exact .catch_ok (h.map some)
  | error e =>
    refine .catch_error (h.map some) ?_
    rw [served]
    split
    · exact .ret _ _
    · exact .fail _ _

theorem runs_load {α : Type} (hWindow : s.window.numeric?.isSome) (h : d.Bears s.className key)
    (hReads : d.fails .read d.accesses = false) (read : Json → Option α) (expected : String) :
    Runs (s.load (.string key) read expected) d (s.reading d key read expected) d.counted := by
  rw [load]
  refine .bind (runs_access _ (Disk.runs_read h hReads)) ?_
  rw [reading]
  cases d.blob s.className key with
  | none => exact .fail _ _
  | some stored =>
    refine .bind (.state _) ?_
    simp only [isStale_eq hWindow]
    refine .bind (.ofExcept (.ok (s.outlived (d.now - stored.mtime))) _) ?_
    split
    · exact .bind_fail (.fail _ _)
    · cases stored.content.json?.bind read with
      | some value => exact .ret _ _
      | none => exact .fail _ _

theorem runs_save (h : d.Bears s.className key) {j : Json} (hWritable : j.isWritable = true)
    (hWrites : d.fails .write d.accesses = false) (hRoom : d.room ≠ some 0) :
    Runs (s.save (.string key) j) d (.ok ()) (d.written s.className key (.document j)) := by
  rw [save, hWritable]
  exact runs_access _ (Disk.runs_write h _ hWrites hRoom)

theorem runs_save_fails (key : Json) {j : Json} (hWritable : j.isWritable = true)
    (h : d.fails .write d.accesses = true ∨ d.room = some 0) :
    Runs (s.save key j) d (.error (.cache (.storage s.className key .write))) d.counted := by
  rw [save, hWritable]
  exact runs_access _ (Disk.runs_write_fails _ _ h)

theorem runs_discardBlob (h : d.Bears s.className key) (hRemoves : d.fails .remove d.accesses = false) :
    Runs (s.discardBlob (.string key)) d (.ok ()) (d.removed s.className key) :=
  (runs_whenServed (runs_access _ (Disk.runs_remove h hRemoves))).map _

/-! ### Reading the snapshot -/

theorem runs_listIds (hWindow : s.window.numeric?.isSome) (h : d.Bears s.className ".list")
    (hReads : d.fails .read d.accesses = false) : Runs s.listIds d (s.idsIn d) d.counted :=
  runs_load hWindow h hReads _ _

theorem runs_get (hWindow : s.window.numeric?.isSome) (h : d.Bears s.className key)
    (hReads : d.fails .read d.accesses = false) :
    Runs (s.get (.string key)) d (s.recordIn d key) d.counted :=
  (runs_load hWindow h hReads _ _).map _

theorem runs_getAll (hWindow : s.window.numeric?.isSome) {ids : List String}
    (h : ∀ id ∈ ids, d.Bears s.className id) (hReads : d.Obeys .read) :
    ∃ n, Runs (ids.mapM fun id => s.get (.string id)) d (ids.mapM (s.recordIn d))
      { d with accesses := n } := by
  induction ids generalizing d with
  | nil =>
    rw [List.mapM_nil, List.mapM_nil]
    exact ⟨d.accesses, .ret _ _⟩
  | cons id rest ih =>
    have hFirst := runs_get hWindow (h id List.mem_cons_self) (hReads d.accesses)
    have hRest : ∀ other ∈ rest, d.counted.Bears s.className other :=
      fun other hOther => (h other (List.mem_cons_of_mem _ hOther)).counted
    obtain ⟨n, hTail⟩ := ih hRest hReads
    rw [List.mapM_cons, List.mapM_cons]
    cases hRecord : s.recordIn d id with
    | error e =>
      rw [hRecord] at hFirst
      exact ⟨_, hFirst.bind_fail⟩
    | ok r =>
      rw [hRecord] at hFirst
      refine ⟨n, hFirst.bind ?_⟩
      have hSame : s.recordIn d.counted = s.recordIn d := rfl
      rw [hSame] at hTail
      cases hRecords : rest.mapM (s.recordIn d) with
      | error e =>
        rw [hRecords] at hTail
        exact hTail.bind_fail
      | ok rs =>
        rw [hRecords] at hTail
        exact hTail.bind (.ret _ _)

theorem runs_loadAll (hWindow : s.window.numeric?.isSome) (hIndex : d.Bears s.className ".list")
    (hIds : ∀ ids, s.idsIn d = .ok ids → ∀ id ∈ ids, d.Bears s.className id) (hReads : d.Obeys .read) :
    ∃ n, Runs s.loadAll d (s.allIn d) { d with accesses := n } := by
  have hFirst := runs_listIds hWindow hIndex (hReads d.accesses)
  rw [loadAll, allIn]
  cases hRead : s.idsIn d with
  | error e =>
    rw [hRead] at hFirst
    exact ⟨_, hFirst.bind_fail⟩
  | ok ids =>
    rw [hRead] at hFirst
    have hBears : ∀ id ∈ ids, d.counted.Bears s.className id := fun id hId =>
      (hIds ids hRead id hId).counted
    obtain ⟨n, hAll⟩ := runs_getAll hWindow hBears hReads
    exact ⟨n, hFirst.bind hAll⟩

end RecordCache.LocalStore
