import RecordCache.Proofs.LocalStore.Faults
import RecordCache.Proofs.LocalStore.Snapshot

/-!
# When a snapshot can be used

Loading a snapshot returns just where every blob of it can be used: the index, and then each record that it
lists, at the access that reads it. What keeps a blob from being used is a failure of the cache. Loading only
reads.
-/

namespace RecordCache

namespace Disk

variable {d : Disk} {n : Nat} {p : Place}

/-- What reading a place comes to, if it is the access with this number. -/
def readAt (d : Disk) (n : Nat) (p : Place) : Except DiskFault (Option Stored) :=
  ((Disk.read p).run.run { d with accesses := n }).1

theorem runs_readAt (d : Disk) (p : Place) : Runs (Disk.read p) d (d.readAt d.accesses p) d.counted := by
  have hRuns : ∃ r, Runs (Disk.read p) d r d.counted := by
    cases hFails : d.fails .read d.accesses with
    | true => exact ⟨_, runs_read_fails p hFails⟩
    | false =>
      rw [Disk.read]
      cases hSpot : d.counted.locate p with
      | error fault =>
        refine ⟨.error fault, .bind (runs_attempt .read d) ?_⟩
        simp only [hFails, Bool.false_eq_true, if_false]
        exact .bind (.state _) (.bind_fail (hSpot ▸ .ofExcept _ _))
      | ok spot =>
        refine ⟨.ok (spot.bind d.blobs.get?), .bind (runs_attempt .read d) ?_⟩
        simp only [hFails, Bool.false_eq_true, if_false]
        exact .bind (.state _) (.bind (hSpot ▸ .ofExcept _ _) (.ret _ _))
  obtain ⟨r, hRead⟩ := hRuns
  have hResult : d.readAt d.accesses p = r := congrArg Prod.fst hRead
  rw [hResult]
  exact hRead

theorem readAt_of_bears {d : Disk} {space key : String} {n : Nat} (h : d.Bears space key)
    (hReads : d.fails .read n = false) : d.readAt n ⟨space, .string key⟩ = .ok (d.blob space key) := by
  have hBears : ({ d with accesses := n } : Disk).Bears space key := h.of_same rfl rfl rfl
  exact ((runs_readAt { d with accesses := n } _).unique (runs_read hBears hReads)).1

/-- Read by the access with this number, the place holds a document that is not older than the window. -/
def Shows (d : Disk) (n : Nat) (p : Place) (window : Number) (j : Json) : Prop :=
  ∃ stored, d.readAt n p = .ok (some stored) ∧ window.less (.float (d.now - stored.mtime)) = false ∧
    stored.content.json? = some j

/-- The index lists some ids, and under each there is an object, none of them older than the window. The accesses
to come read them in this order. -/
def Snapshot (d : Disk) (className : String) (window : Number) (records : List Record) : Prop :=
  ∃ ids, d.Shows d.accesses ⟨className, .string ".list"⟩ window (LocalStore.index ids) ∧
    List.Forall₂ (fun id r => ∃ fields, d.Shows id.2 ⟨className, .string id.1⟩ window (.object fields) ∧
      r = Record.ofFields fields) (ids.zipIdx (d.accesses + 1)) records

end Disk

namespace LocalStore

variable {α : Type} {s : LocalStore} {window : Number} {d : Disk}

/-- Blobs may be used until they are older than this. -/
def Within (s : LocalStore) (window : Number) : Prop := ∀ age, s.isStale age = .ok (window.less (.float age))

/-- What is loaded of what an access came to, if it can be used. -/
def usable? (window : Number) (now : Float) (read : Json → Option α) : Except DiskFault (Option Stored) → Option α
  | .ok (some stored) =>
    if window.less (.float (now - stored.mtime)) then none else stored.content.json?.bind read
  | _ => none

theorem usable?_eq_some_iff {n : Nat} {p : Place} (read : Json → Option α) (value : α) :
    usable? window d.now read (d.readAt n p) = some value ↔ ∃ j, d.Shows n p window j ∧ read j = some value := by
  constructor
  · intro h
    match hRead : d.readAt n p with
    | .ok (some stored) =>
      rw [hRead, usable?] at h
      split at h
      · cases h
      · next hNew =>
        obtain ⟨j, hJson, hValue⟩ := Option.bind_eq_some_iff.mp h
        exact ⟨j, ⟨stored, hRead, by simpa using hNew, hJson⟩, hValue⟩
    | .ok none =>
      rw [hRead] at h
      cases h
    | .error fault =>
      rw [hRead] at h
      cases h
  · rintro ⟨j, ⟨stored, hRead, hNew, hJson⟩, hValue⟩
    rw [hRead, usable?, hNew, hJson]
    exact hValue

theorem runs_load_usable (h : s.Within window) (key : Json) (read : Json → Option α) (expected : String) (d : Disk) :
    ∃ r, Runs (s.load key read expected) d r d.counted ∧
      r.toOption = usable? window d.now read (d.readAt d.accesses (s.place key)) := by
  have hAccess := runs_access (s := s) key (Disk.runs_readAt d (s.place key))
  rw [load]
  rcases hRead : d.readAt d.accesses (s.place key) with fault | _ | stored
  · rw [hRead] at hAccess
    exact ⟨_, .bind_fail hAccess, rfl⟩
  · rw [hRead] at hAccess
    exact ⟨_, .bind hAccess (.fail _ _), rfl⟩
  · rw [hRead] at hAccess
    have hCounted : d.counted.now = d.now := rfl
    have hStale := h (d.now - stored.mtime)
    rw [usable?]
    split
    · next hOld =>
      rw [hOld] at hStale
      refine ⟨.error (.cache (.expired s.className key (d.now - stored.mtime))), .bind hAccess (.bind (.state _) ?_), rfl⟩
      simp only [hCounted, hStale]
      exact .bind (.ofExcept (.ok true) _) (.bind_fail (.fail _ _))
    · next hNew =>
      rw [Bool.eq_false_iff.mpr hNew] at hStale
      cases hContent : stored.content.json?.bind read with
      | none =>
        refine ⟨.error (.cache (.wrongFormat s.className key expected)), .bind hAccess (.bind (.state _) ?_), rfl⟩
        simp only [hCounted, hStale, hContent]
        exact .bind (.ofExcept (.ok false) _) (.fail _ _)
      | some value =>
        refine ⟨.ok value, .bind hAccess (.bind (.state _) ?_), rfl⟩
        simp only [hCounted, hStale, hContent]
        exact .bind (.ofExcept (.ok false) _) (.ret _ _)

theorem runs_load_iff (h : s.Within window) (key : Json) (read : Json → Option α) (expected : String) (d : Disk) :
    ∃ r, Runs (s.load key read expected) d r d.counted ∧
      ∀ value, r = .ok value ↔ ∃ j, d.Shows d.accesses (s.place key) window j ∧ read j = some value := by
  obtain ⟨r, hRun, hResult⟩ := runs_load_usable h key read expected d
  refine ⟨r, hRun, fun value => ?_⟩
  rw [← Except.toOption_eq_some_iff, hResult, usable?_eq_some_iff]

theorem runs_listIds_iff (h : s.Within window) (d : Disk) :
    ∃ r, Runs s.listIds d r d.counted ∧
      ∀ ids, r = .ok ids ↔ d.Shows d.accesses ⟨s.className, .string ".list"⟩ window (index ids) := by
  obtain ⟨r, hRun, hResult⟩ := runs_load_iff h indexKey
    (fun j => j.array?.bind fun items => items.mapM Json.string?) "a list of ids" d
  refine ⟨r, hRun, fun ids => (hResult ids).trans ?_⟩
  constructor
  · rintro ⟨j, hShows, hIds⟩
    exact (strings_iff j ids).mp hIds ▸ hShows
  · exact fun hShows => ⟨_, hShows, (strings_iff _ ids).mpr rfl⟩

theorem runs_get_iff (h : s.Within window) (id : String) (d : Disk) :
    ∃ r, Runs (s.get (.string id)) d r d.counted ∧
      ∀ record, r = .ok record ↔ ∃ fields, d.Shows d.accesses ⟨s.className, .string id⟩ window (.object fields) ∧
        record = Record.ofFields fields := by
  obtain ⟨r, hRun, hResult⟩ := runs_load_iff h (.string id) Json.object? "an object" d
  refine ⟨_, hRun.map Record.ofFields, fun record => ?_⟩
  rw [Except.map_eq_ok]
  constructor
  · rintro ⟨fields, hOk, rfl⟩
    obtain ⟨j, hShows, hObject⟩ := (hResult fields).mp hOk
    cases j <;> cases hObject
    exact ⟨fields, hShows, rfl⟩
  · rintro ⟨fields, hShows, rfl⟩
    exact ⟨fields, (hResult fields).mpr ⟨_, hShows, rfl⟩, rfl⟩

theorem runs_getAll_iff (h : s.Within window) (ids : List String) (d : Disk) :
    ∃ r k, Runs (ids.mapM fun id => s.get (.string id)) d r { d with accesses := k } ∧
      (∀ records, r = .ok records → k = d.accesses + records.length) ∧
      ∀ records, r = .ok records ↔
        List.Forall₂ (fun id record => ∃ fields, d.Shows id.2 ⟨s.className, .string id.1⟩ window (.object fields) ∧
          record = Record.ofFields fields) (ids.zipIdx d.accesses) records := by
  induction ids generalizing d with
  | nil =>
    refine ⟨.ok [], d.accesses, .ret _ _, ?_, fun records => ?_⟩
    · intro records hRecords
      cases hRecords
      rfl
    · simp [eq_comm]
  | cons id rest ih =>
    obtain ⟨first, hFirst, hFound⟩ := runs_get_iff h id d
    rw [List.mapM_cons, List.zipIdx_cons]
    cases first with
    | error e =>
      refine ⟨_, d.accesses + 1, hFirst.bind_fail, nofun, fun records => ⟨nofun, ?_⟩⟩
      intro hAll
      cases hAll with
      | cons hHead hTail => cases (hFound _).mpr hHead
    | ok record =>
      obtain ⟨others, k, hOthers, hCount, hRest⟩ := ih d.counted
      refine ⟨(record :: ·) <$> others, k, ?_, ?_, ?_⟩
      · refine .bind hFirst ?_
        rw [← map_eq_pure_bind]
        exact hOthers.map _
      · intro records hRecords
        obtain ⟨tail, hTail, rfl⟩ := Except.map_eq_ok.mp hRecords
        have hLength := hCount tail hTail
        rw [List.length_cons, hLength]
        change d.accesses + 1 + _ = _
        omega
      · intro records
        rw [Except.map_eq_ok]
        constructor
        · rintro ⟨tail, hTail, rfl⟩
          exact .cons ((hFound record).mp rfl) ((hRest tail).mp hTail)
        · intro hAll
          cases hAll with
          | cons hHead hTail =>
            obtain rfl := Except.ok.inj ((hFound _).mpr hHead)
            exact ⟨_, (hRest _).mpr hTail, rfl⟩

/-- Loading the snapshot only reads, and returns just what can be used. -/
theorem runs_loadAll_iff (h : s.Within window) (d : Disk) :
    ∃ r k, Runs s.loadAll d r { d with accesses := k } ∧ (∀ e, r = .error e → e.isCache = true) ∧
      (∀ records, r = .ok records → k = d.accesses + 1 + records.length) ∧
      ∀ records, r = .ok records ↔ d.Snapshot s.className window records := by
  obtain ⟨listed, hList, hIds⟩ := runs_listIds_iff h d
  have hSoft : ∀ r k, Runs s.loadAll d r { d with accesses := k } → ∀ e, r = .error e → e.isCache = true :=
    fun r k hRun => FailsSoftly.loadAll (fun age => ⟨_, h age⟩) _ _ _ hRun
  cases listed with
  | error e =>
    have hRun : Runs s.loadAll d (.error e) { d with accesses := d.accesses + 1 } := hList.bind_fail
    refine ⟨_, _, hRun, hSoft _ _ hRun, nofun, fun records => ⟨nofun, ?_⟩⟩
    rintro ⟨ids, hShows, -⟩
    cases (hIds ids).mpr hShows
  | ok ids =>
    obtain ⟨r, k, hAll, hCount, hRecords⟩ := runs_getAll_iff h ids d.counted
    have hRun : Runs s.loadAll d r { d with accesses := k } := hList.bind hAll
    refine ⟨r, k, hRun, hSoft _ _ hRun, hCount, fun records => (hRecords records).trans ?_⟩
    constructor
    · exact fun hListed => ⟨ids, (hIds ids).mp rfl, hListed⟩
    · rintro ⟨others, hShows, hListed⟩
      obtain rfl := Except.ok.inj ((hIds others).mpr hShows)
      exact hListed

/-! ### Reading only -/

/-- Whatever the work comes to, it has only counted accesses. -/
def OnlyReads (work : Serving α) : Prop := ∀ d r d', Runs work d r d' → ∃ k, d' = { d with accesses := k }

namespace OnlyReads

variable {β : Type}

theorem of_runs {work : Serving α} (h : ∀ d, ∃ r k, Runs work d r { d with accesses := k }) : OnlyReads work := by
  refine Moves.of_runs fun d => ?_
  obtain ⟨r, k, hRun⟩ := h d
  exact ⟨r, _, hRun, k, rfl⟩

theorem trans (d d' d'' : Disk) (h : ∃ k, d' = { d with accesses := k }) (h' : ∃ k, d'' = { d' with accesses := k }) :
    ∃ k, d'' = { d with accesses := k } := by
  obtain ⟨k, rfl⟩ := h
  exact h'

theorem ret (a : α) : OnlyReads (pure a) := of_runs fun d => ⟨_, d.accesses, .ret a d⟩

theorem fail (e : Error) : OnlyReads (throw e : Serving α) := of_runs fun d => ⟨_, d.accesses, .fail e d⟩

theorem ofExcept (r : Except Error α) : OnlyReads (liftM r : Serving α) :=
  of_runs fun d => ⟨r, d.accesses, .ofExcept r d⟩

theorem ofOption (found? : Option α) (e : Error) :
    OnlyReads (match found? with | some a => pure a | none => throw e : Serving α) := by
  cases found? with
  | some a => exact ret a
  | none => exact fail e

theorem bind {work : Serving α} {next : α → Serving β} (h : OnlyReads work) (hNext : ∀ a, OnlyReads (next a)) :
    OnlyReads (work >>= next) := Moves.bind trans h hNext

theorem map {work : Serving α} (f : α → β) (h : OnlyReads work) : OnlyReads (f <$> work) := Moves.map f h

theorem mapM {f : α → Serving β} (h : ∀ a, OnlyReads (f a)) (xs : List α) : OnlyReads (xs.mapM f) :=
  Moves.mapM (fun d => ⟨d.accesses, rfl⟩) trans h xs

theorem load (s : LocalStore) (key : Json) (read : Json → Option α) (expected : String) :
    OnlyReads (s.load key read expected) := by
  rw [LocalStore.load]
  refine bind (of_runs fun d => ⟨_, _, runs_access key (Disk.runs_readAt d _)⟩) fun found => ?_
  cases found with
  | none => exact fail _
  | some stored =>
    refine bind (of_runs fun d => ⟨_, d.accesses, .state d⟩) fun d => bind (ofExcept _) fun stale => ?_
    cases stale with
    | true => exact (fail _).bind fun _ => ofOption (stored.content.json?.bind read) _
    | false => exact ofOption (stored.content.json?.bind read) _

theorem loadAll (s : LocalStore) : OnlyReads s.loadAll :=
  (load s _ _ _).bind fun ids => mapM (fun _ => (load s _ _ _).map _) ids

end OnlyReads

end LocalStore

end RecordCache
