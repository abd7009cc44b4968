import RecordCache.Proofs.Client.Populate
import RecordCache.Proofs.LocalStore.Changes

/-!
# How long a population is read back

A population writes each record over the one before it with the same id, and lists every id once. As long as nothing
else is written to the class, the snapshot is read back as it was fetched until it is older than the window, and not
at all after that. What was cached before takes no part in it.
-/

namespace RecordCache

namespace LocalStore

variable {s : LocalStore} {d d' later : Disk} {records : List Record} {ids : List String} {r : Record}
  {id : String}

/-- The ids of the records, in the order in which they are met first. -/
def distinctIds (records : List Record) : List String := (records.filterMap Record.objectId?).eraseDups

/-- One record for each id: the one that is met last. -/
def latest (records : List Record) : List Record :=
  (distinctIds records).filterMap fun id => records.reverse.find? fun r => r.objectId? = some id

/-- Nothing has been written to the class meanwhile, and reads work as they did. Any time may have passed. -/
structure Unwritten (className : String) (d later : Disk) : Prop where
  blob : ∀ key, later.blob className key = d.blob className key
  bears : ∀ key, d.Bears className key → later.Bears className key
  reads : d.Obeys .read → later.Obeys .read

theorem Unwritten.refl (className : String) (d : Disk) : Unwritten className d d :=
  ⟨fun _ => rfl, fun _ h => h, fun h => h⟩

theorem Unwritten.trans {className : String} (h : Unwritten className d d')
    (h' : Unwritten className d' later) : Unwritten className d later :=
  ⟨fun key => (h'.blob key).trans (h.blob key), fun key hBears => h'.bears key (h.bears key hBears),
    fun hReads => h'.reads (h.reads hReads)⟩

/-! ### The last record of each id -/

theorem exists_last (hMem : r ∈ records) (hId : r.objectId? = some id) :
    ∃ last ∈ records, last.objectId? = some id ∧
      records.reverse.find? (fun r => r.objectId? = some id) = some last := by
  cases hFound : records.reverse.find? fun r => r.objectId? = some id with
  | none =>
    have hNone := List.find?_eq_none.mp hFound r (List.mem_reverse.mpr hMem)
    simp [hId] at hNone
  | some last =>
    exact ⟨last, List.mem_reverse.mp (List.mem_of_find?_eq_some hFound), by simpa using List.find?_some hFound, rfl⟩

theorem mem_distinctIds : id ∈ distinctIds records ↔ ∃ r ∈ records, r.objectId? = some id := by
  rw [distinctIds, List.mem_eraseDups, List.mem_filterMap]

/-- Each id has its last record, in the same order. -/
theorem forall₂_latest (records : List Record) :
    List.Forall₂ (fun id r => r ∈ records ∧ records.reverse.find? (fun r => r.objectId? = some id) = some r)
      (distinctIds records) (latest records) := by
  have hAll : ∀ ids : List String, (∀ id ∈ ids, ∃ r ∈ records, r.objectId? = some id) →
      List.Forall₂ (fun id r => r ∈ records ∧ records.reverse.find? (fun r => r.objectId? = some id) = some r)
        ids (ids.filterMap fun id => records.reverse.find? fun r => r.objectId? = some id) := by
    intro ids hIds
    induction ids with
    | nil => exact .nil
    | cons id rest ih =>
      obtain ⟨r, hMem, hId⟩ := hIds id List.mem_cons_self
      obtain ⟨last, hLast, -, hFound⟩ := exists_last hMem hId
      rw [List.filterMap_cons, hFound]
      exact .cons ⟨hLast, hFound⟩ (ih fun other hOther => hIds other (List.mem_cons_of_mem _ hOther))
  exact hAll _ fun id hId => mem_distinctIds.mp hId

theorem mem_of_latest (h : r ∈ latest records) : r ∈ records := by
  obtain ⟨id, -, hFound⟩ := List.mem_filterMap.mp h
  exact List.mem_reverse.mp (List.mem_of_find?_eq_some hFound)

/-! ### The disk after a population -/

/-- The snapshot of these records stands on the disk, written at this time. -/
structure Snapshot (s : LocalStore) (records : List Record) (mtime : Float) (d : Disk) : Prop where
  reads : d.Obeys .read
  bears : ∀ key, key = ".list" ∨ key ∈ distinctIds records → d.Bears s.className key
  index : d.blob s.className ".list" = some ⟨.document (index (distinctIds records)), mtime⟩
  records : ∀ id r, records.reverse.find? (fun r => r.objectId? = some id) = some r →
    r.FromDocument ∧ d.blob s.className id = some ⟨.document r.json, mtime⟩

theorem Snapshot.unwritten {mtime : Float} (h : s.Snapshot records mtime d) (hLater : Unwritten s.className d later) :
    s.Snapshot records mtime later where
  reads := hLater.reads h.reads
  bears key hKey := hLater.bears key (h.bears key hKey)
  index := (hLater.blob _).trans h.index
  records id r hFound := (h.records id r hFound).imp_right (hLater.blob id).trans

theorem ids_of_accepts (hRecords : s.Accepts d records) :
    records.map Record.objectId? = (records.filterMap Record.objectId?).map some := by
  induction records with
  | nil => rfl
  | cons r rest ih =>
    obtain ⟨-, id, hId, -⟩ := hRecords r List.mem_cons_self
    rw [List.map_cons, List.filterMap_cons, hId, List.map_cons,
      ih fun other hOther => hRecords other (List.mem_cons_of_mem _ hOther)]

/-- Records that may repeat their ids are written, whatever was cached before. -/
theorem exists_swap (h : Healthy s.className d) (hRecords : s.Accepts d records)
    (hList : ∀ r ∈ records, r.objectId? ≠ some ".list") :
    ∃ d', Runs (s.swap records) d (.ok ()) d' ∧ s.Snapshot records d.stamp d' := by
  obtain ⟨-, -, hFails, -⟩ := wrote_frame s d records
  refine ⟨_, runs_swap_repeating hRecords (ids_of_accepts hRecords) h.index (h.obeys .write) (by simp [h.room]),
    fun n => ?_, fun key hKey => ?_, ?_, fun id r hFound => ?_⟩
  · change (s.wrote d records).fails .read n = false
    rw [hFails]
    exact h.obeys .read n
  · refine (bears_wrote records ?_).written _
    rcases hKey with rfl | hKey
    · exact h.index
    · obtain ⟨r, hMem, hId⟩ := mem_distinctIds.mp hKey
      obtain ⟨-, own, hOwn, hBears⟩ := hRecords r hMem
      rw [hId, Option.some.injEq] at hOwn
      exact hOwn ▸ hBears
  · rw [Disk.blob_written, if_pos rfl, stamp_wrote]
    rfl
  · have hMem := List.mem_reverse.mp (List.mem_of_find?_eq_some hFound)
    have hId : r.objectId? = some id := by simpa using List.find?_some hFound
    -- the index is written last, and over no record
    have hOther : ".list" ≠ id := fun hSame => hList r hMem (hSame ▸ hId)
    refine ⟨(hRecords r hMem).1, ?_⟩
    rw [Disk.blob_written, if_neg hOther, blob_wrote hRecords.isSome, hFound]

/-! ### Reading it -/

variable {mtime : Float}

theorem Snapshot.recordIn_eq (h : s.Snapshot records mtime d) (hMem : r ∈ records) (hId : r.objectId? = some id) :
    ∃ last, s.recordIn d id =
      if s.outlived (d.now - mtime) then .error (.cache (.expired s.className (.string id) (d.now - mtime)))
      else .ok last := by
  obtain ⟨last, -, -, hFound⟩ := exists_last hMem hId
  obtain ⟨hDocument, hBlob⟩ := h.records id last hFound
  exact ⟨last, recordIn_of_record hDocument hBlob⟩

theorem Snapshot.allIn_eq (h : s.Snapshot records mtime d) :
    s.allIn d =
      if s.outlived (d.now - mtime) then
        .error (.cache (.expired s.className (.string ".list") (d.now - mtime)))
      else .ok (latest records) := by
  cases hAge : s.outlived (d.now - mtime) with
  | true =>
    rw [allIn, idsIn_of_index h.index, hAge]
    rfl
  | false =>
    refine allIn_of_fresh h.index hAge ((forall₂_latest records).imp fun id r hLast => ?_)
    obtain ⟨hDocument, hBlob⟩ := h.records id r hLast.2
    exact ⟨hDocument, mtime, hBlob, hAge⟩

theorem Snapshot.runs_loadAll (h : s.Snapshot records mtime d) (hWindow : s.window.numeric?.isSome) :
    ∃ n, Runs s.loadAll d (s.allIn d) { d with accesses := n } := by
  refine LocalStore.runs_loadAll hWindow (h.bears _ (.inl rfl)) (fun ids hIds id hId => ?_) h.reads
  rw [idsIn_of_index h.index] at hIds
  split at hIds <;> cases hIds
  exact h.bears id (.inr hId)

end LocalStore

namespace Session

open LocalStore

variable {κ α : Type} {notify : Notify κ α} {ref : StoreRef} {callback : Option κ}
  {fetch : Work κ α (List Record)} {s fetched : Session κ α} {records : List Record}

/-- A population is what is read back, until it expires. The fetched records may repeat their ids, and anything may
have been cached before. As long as nothing else is written to the class, reading the snapshot back gives the last
record of each id, in the order in which the ids were met first, while the snapshot is no older than the window;
after that the snapshot, its index and every fetched record have expired. No record that was not fetched is ever
given. -/
theorem populateBy_lasts {window : Number} (hFirst : s.populations.get? ref.number = none)
    (hFetch : Runs fetch { s with populations := s.populations.set ref.number callback.toList }
      (.ok records) fetched)
    (hNotify : ∀ caller t, ∃ t', Runs (notify caller (.records (.ok records))) t (.ok ()) t' ∧
      Unwritten ref.store.className t.disk t'.disk)
    (hWindow : ref.store.window.numeric? = some window) (hHealthy : Healthy ref.store.className fetched.disk)
    (hRecords : ref.store.Accepts fetched.disk records)
    (hList : ∀ r ∈ records, r.objectId? ≠ some ".list") :
    ∃ t, Runs (populateBy notify ref callback fetch) s (.ok (some records)) t ∧
      ∀ later, Unwritten ref.store.className t.disk later →
        (window.less (.float (later.now - fetched.disk.stamp)) = false →
          ∃ n, Runs ref.store.loadAll later (.ok (latest records)) { later with accesses := n }) ∧
        (window.less (.float (later.now - fetched.disk.stamp)) = true →
          (∃ n, Runs ref.store.loadAll later (.error (.cache (.expired ref.store.className (.string ".list")
            (later.now - fetched.disk.stamp)))) { later with accesses := n }) ∧
          Runs ref.store.listIds later (.error (.cache (.expired ref.store.className (.string ".list")
            (later.now - fetched.disk.stamp)))) later.counted ∧
          ∀ r ∈ records, ∀ id, r.objectId? = some id →
            Runs (ref.store.get (.string id)) later (.error (.cache (.expired ref.store.className (.string id)
              (later.now - fetched.disk.stamp)))) later.counted) ∧
        ∀ kept after, Runs ref.store.loadAll later (.ok kept) after → ∀ r ∈ kept, r ∈ records := by
  have hSome : ref.store.window.numeric?.isSome := by rw [hWindow]; rfl
  obtain ⟨disk, hSwap, hWritten⟩ := exists_swap hHealthy hRecords hList
  obtain ⟨t, hRun, hCallbacks⟩ := runs_populateBy_then (Unwritten.refl ref.store.className)
    (fun _ _ _ => Unwritten.trans) hFirst hFetch hSwap hNotify
  refine ⟨t, hRun, fun later hLater => ?_⟩
  have hThere := (hWritten.unwritten hCallbacks).unwritten hLater
  have hAge (age : Float) : ref.store.outlived age = window.less (.float age) := by rw [outlived, hWindow]
  obtain ⟨n, hLoad⟩ := hThere.runs_loadAll hSome
  have hAll := hThere.allIn_eq
  rw [hAge] at hAll
  refine ⟨fun hYoung => ?_, fun hOld => ⟨?_, ?_, fun r hMem id hId => ?_⟩, fun kept after hKept r hMem => ?_⟩
  · rw [hAll, hYoung] at hLoad
    exact ⟨n, hLoad⟩
  · rw [hAll, hOld] at hLoad
    exact ⟨n, hLoad⟩
  · have hList := runs_listIds hSome (hThere.bears _ (.inl rfl)) (hThere.reads _)
    rwa [idsIn_of_index hThere.index, hAge, hOld] at hList
  · have hGet := runs_get hSome (hThere.bears id (.inr (mem_distinctIds.mpr ⟨r, hMem, hId⟩))) (hThere.reads _)
    obtain ⟨last, hRecord⟩ := hThere.recordIn_eq hMem hId
    rwa [hRecord, hAge, hOld] at hGet
  · obtain ⟨hSame, -⟩ := hKept.unique hLoad
    rw [hAll] at hSame
    split at hSame <;> cases hSame
    exact mem_of_latest hMem

/-- What a population of notes fetches when the first one changes meanwhile. -/
def changingNotes : List Record := [note "a" "new", note "c" "new", note "a" "newer"]

/-- Two cached notes, and room for all writes. -/
def roomy : Session Unit Unit := { almostFull with disk := { almostFull.disk with room := none } }

theorem healthy_roomy : Healthy notes.store.className roomy.disk where
  obeys := fun _ _ => rfl
  room := rfl
  index := Disk.bears_of_kind (by decide) _ _

theorem accepts_changingNotes : notes.store.Accepts roomy.disk changingNotes := by
  intro r hr
  have hBears (id : String) : roomy.disk.Bears "Note" id := Disk.bears_of_kind (by decide) _ _
  simp only [changingNotes, List.mem_cons, List.not_mem_nil, or_false] at hr
  rcases hr with rfl | rfl | rfl
  · exact ⟨fromDocument_note _ _, "a", rfl, hBears _⟩
  · exact ⟨fromDocument_note _ _, "c", rfl, hBears _⟩
  · exact ⟨fromDocument_note _ _, "a", rfl, hBears _⟩

/-- The old note `b` is gone, `a` is the one that was fetched last, and the last second of the window counts. -/
theorem populateBy_lasts_changingNotes :
    ∃ t, Runs (populateBy (fun _ _ => pure ()) notes none (pure changingNotes)) roomy (.ok (some changingNotes)) t ∧
      ∀ later, Unwritten "Note" t.disk later →
        (later.now = 1060.0 →
          ∃ n, Runs notes.store.loadAll later (.ok [note "a" "newer", note "c" "new"])
            { later with accesses := n }) ∧
        (later.now = 1061.0 →
          Runs (notes.store.get (.string "c")) later (.error (.cache (.expired "Note" (.string "c") (1061.0 - 1000.0))))
            later.counted) := by
  have hList : ∀ r ∈ changingNotes, r.objectId? ≠ some ".list" := by decide
  have hWindow : notes.store.window.numeric? = some (.int 60) := rfl
  have hLasts : ∃ t, Runs (populateBy (fun _ _ => pure ()) notes none (pure changingNotes)) roomy
      (.ok (some changingNotes)) t ∧ _ :=
    populateBy_lasts rfl (.ret changingNotes _) (fun _ t => ⟨t, .ret _ _, .refl _ _⟩) hWindow healthy_roomy
      accepts_changingNotes hList
  obtain ⟨t, hRun, hLater⟩ := hLasts
  refine ⟨t, hRun, fun later hUnwritten => ?_⟩
  obtain ⟨hYoung, hOld, -⟩ := hLater later hUnwritten
  have hStamp : roomy.disk.stamp = 1000.0 := rfl
  constructor
  · intro hNow
    refine hYoung ?_
    rw [hNow]
    decide +kernel
  · intro hNow
    have hAged : (Number.int 60).less (.float (later.now - roomy.disk.stamp)) = true := by
      rw [hNow]
      decide +kernel
    have hGet := (hOld hAged).2.2 (note "c" "new") (.tail _ (.head _)) "c" rfl
    rwa [hNow, hStamp] at hGet

end Session

end RecordCache
