import Mathlib.Data.List.Nodup
import RecordCache.Client.Fetching
import RecordCache.Proofs.Client.Runs
import RecordCache.Proofs.LocalStore.Snapshot

/-!
# A population that the disk cuts short

There is room for some writes, and every later one fails. Reading the snapshot back then fails in the
cache, or it gives the fetched records: for certain so, unless the one write that fails is the one of the
index. Then the old index stays in place, and lists its ids over new and old records.
-/

namespace RecordCache

namespace LocalStore

variable {s : LocalStore} {d : Disk} {records : List Record} {ids : List String} {id : String}

/-- The result is a failure of the cache, or these records. -/
def ServesOnly (records : List Record) (r : Except Error (List Record)) : Prop :=
  (∃ e, r = .error e ∧ e.isCache = true) ∨ r = .ok records

/-- What an index lists when some records were written anew. -/
def mixture (s : LocalStore) (d : Disk) (records : List Record) (stamp : Float) :
    Except Error (List Record) := do
  (← s.idsIn d).mapM fun id =>
    match records.reverse.find? fun r => r.objectId? = some id with
    | some r =>
      if s.outlived (d.now - stamp) then .error (.cache (.expired s.className (.string id) (d.now - stamp)))
      else .ok r
    | none => s.recordIn d id

/-- A store whose disk refuses no access and bears every name that the index lists. -/
structure Works (s : LocalStore) (d : Disk) : Prop where
  window : s.window.numeric?.isSome
  index : d.Bears s.className ".list"
  listed : ∀ seconds ids, s.idsIn (d.advance seconds) = .ok ids → ∀ id ∈ ids, d.Bears s.className id
  obeys : ∀ a, d.Obeys a

theorem bears_advance {key : String} (h : d.Bears s.className key) (seconds : Float) :
    (d.advance seconds).Bears s.className key := h.of_same rfl rfl rfl

theorem forall₂_ids (hIds : records.map Record.objectId? = ids.map some) :
    List.Forall₂ (fun r id => r ∈ records ∧ r.objectId? = some id) records ids := by
  have hSame : List.Forall₂ (· = ·) (records.map Record.objectId?) (ids.map some) := by
    rw [hIds]
    exact List.forall₂_refl _
  rw [List.forall₂_map_left_iff, List.forall₂_map_right_iff, List.forall₂_iff_zip] at hSame
  exact List.forall₂_iff_zip.mpr ⟨hSame.1, fun hMem => ⟨(List.of_mem_zip hMem).1, hSame.2 hMem⟩⟩

theorem find_id (hIds : records.map Record.objectId? = ids.map some) (hNodup : ids.Nodup) {r : Record}
    (hMem : r ∈ records) (hId : r.objectId? = some id) :
    records.reverse.find? (fun r => r.objectId? = some id) = some r := by
  have hDistinct : (records.map Record.objectId?).Nodup := by
    rw [hIds]
    exact hNodup.map fun _ _ hSame => Option.some.inj hSame
  cases hFound : records.reverse.find? fun r => r.objectId? = some id with
  | none =>
    have hNone := List.find?_eq_none.mp hFound r (List.mem_reverse.mpr hMem)
    simp [hId] at hNone
  | some found =>
    have hSame : found.objectId? = some id := by simpa using List.find?_some hFound
    have hThere := List.mem_reverse.mp (List.mem_of_find?_eq_some hFound)
    rw [List.inj_on_of_nodup_map hDistinct hThere hMem (hSame.trans hId.symm)]

/-- The disk after a replacement that there is room for. -/
def swapped (s : LocalStore) (d : Disk) (records : List Record) (ids : List String) : Disk :=
  (s.wrote d records).written s.className ".list" (.document (index ids))

theorem blob_swapped_index (s : LocalStore) (d : Disk) (records : List Record) (ids : List String)
    (seconds : Float) :
    ((s.swapped d records ids).advance seconds).blob s.className ".list" =
      some ⟨.document (index ids), (s.wrote d records).stamp⟩ := (Disk.blob_written ..).trans (if_pos rfl)

theorem idsIn_swapped (s : LocalStore) (d : Disk) (records : List Record) (ids : List String)
    (seconds : Float) {listed : List String}
    (h : s.idsIn ((s.swapped d records ids).advance seconds) = .ok listed) :
    listed = ids := by
  rw [idsIn_of_index (blob_swapped_index s d records ids seconds)] at h
  split at h <;> cases h
  rfl

/-- The whole snapshot is read back as it was fetched, until it is too old. -/
theorem servesOnly_of_swapped (hRecords : s.Accepts d records)
    (hIds : records.map Record.objectId? = ids.map some)
    (hNodup : ids.Nodup) (hList : ".list" ∉ ids) (seconds : Float) :
    ServesOnly records (s.allIn ((s.swapped d records ids).advance seconds)) := by
  have hIndex := blob_swapped_index s d records ids seconds
  generalize hAfter : (s.swapped d records ids).advance seconds = after at hIndex ⊢
  have hBlob {r : Record} {id : String} (hr : r ∈ records) (hId : r.objectId? = some id) :
      after.blob s.className id = some ⟨.document r.json, (s.wrote d records).stamp⟩ := by
    -- the index is written last, and over no record
    have hOther : ".list" ≠ id := by
      rintro rfl
      have hMem : some ".list" ∈ records.map Record.objectId? := List.mem_map.mpr ⟨r, hr, hId⟩
      rw [hIds] at hMem
      simp [hList] at hMem
    have hWritten : after.blob s.className id = (s.wrote d records).blob s.className id := by
      rw [← hAfter]
      exact (Disk.blob_written ..).trans (if_neg hOther)
    rw [hWritten, blob_wrote hRecords.isSome, find_id hIds hNodup hr hId, stamp_wrote]
  cases hAge : s.outlived (after.now - (s.wrote d records).stamp) with
  | true =>
    rw [allIn, idsIn_of_index hIndex, hAge]
    exact .inl ⟨_, rfl, rfl⟩
  | false =>
    refine .inr (allIn_of_fresh hIndex hAge ((forall₂_ids hIds).imp fun r id h => ?_).flip)
    exact ⟨(hRecords r h.1).1, _, hBlob h.1 h.2, hAge⟩

theorem idsIn_removed (s : LocalStore) (d : Disk) (seconds : Float) :
    s.idsIn ((d.removed s.className ".list").advance seconds) =
      .error (.cache (.notFound s.className (.string ".list"))) := by
  have hBlob : ((d.removed s.className ".list").advance seconds).blob s.className ".list" = none :=
    (Disk.blob_removed ..).trans (if_pos rfl)
  rw [idsIn, reading, hBlob]

theorem blob_unlisted (hRecords : s.Accepts d records) (seconds : Float) (key : String) :
    ((s.wrote d records).counted.advance seconds).blob s.className key =
      match records.reverse.find? fun r => r.objectId? = some key with
      | some r => some ⟨.document r.json, d.stamp⟩
      | none => (d.advance seconds).blob s.className key := by
  refine (blob_wrote (d := d) (fun r hr => ?_) key :)
  obtain ⟨-, id, hId, -⟩ := hRecords r hr
  simp [hId]

theorem now_unlisted (s : LocalStore) (d : Disk) (records : List Record) (seconds : Float) :
    ((s.wrote d records).counted.advance seconds).now = (d.advance seconds).now := by
  obtain ⟨-, hNow, -, -⟩ := wrote_frame s d records
  exact congrArg (· + seconds) hNow

theorem idsIn_unlisted (hRecords : s.Accepts d records)
    (hList : some ".list" ∉ records.map Record.objectId?) (seconds : Float) :
    s.idsIn ((s.wrote d records).counted.advance seconds) = s.idsIn (d.advance seconds) := by
  have hNone : records.reverse.find? (fun r => r.objectId? = some ".list") = none := by
    rw [List.find?_eq_none]
    intro r hr hId
    exact hList (List.mem_map.mpr ⟨r, List.mem_reverse.mp hr, by simpa using hId⟩)
  rw [idsIn, idsIn, reading, reading, blob_unlisted hRecords, hNone, now_unlisted]

theorem allIn_unlisted (hRecords : s.Accepts d records)
    (hList : some ".list" ∉ records.map Record.objectId?)
    (seconds : Float) :
    s.allIn ((s.wrote d records).counted.advance seconds) =
      s.mixture (d.advance seconds) records d.stamp := by
  have hRecord (id : String) : s.recordIn ((s.wrote d records).counted.advance seconds) id =
      match records.reverse.find? fun r => r.objectId? = some id with
      | some r =>
        if s.outlived ((d.advance seconds).now - d.stamp) then
          .error (.cache (.expired s.className (.string id) ((d.advance seconds).now - d.stamp)))
        else .ok r
      | none => s.recordIn (d.advance seconds) id := by
    have hThere := blob_unlisted hRecords seconds id
    cases hFound : records.reverse.find? fun r => r.objectId? = some id with
    | some r =>
      rw [hFound] at hThere
      have hDocument := (hRecords r (List.mem_reverse.mp (List.mem_of_find?_eq_some hFound))).1
      rw [recordIn_of_record hDocument hThere, now_unlisted]
    | none =>
      rw [hFound] at hThere
      rw [recordIn, recordIn, reading, reading, hThere, now_unlisted]
  rw [allIn, mixture, idsIn_unlisted hRecords hList, funext hRecord]

/-- Reading the snapshot back after its replacement was cut short. -/
theorem swap_servesOnly_iff (h : s.Works d) (hRecords : s.Accepts d records)
    (hIds : records.map Record.objectId? = ids.map some) (hNodup : ids.Nodup) (hList : ".list" ∉ ids)
    {room : Nat}
    (hRoom : d.room = some room) :
    ∃ d', Runs (s.swap records) d (.ok ()) d' ∧ ∀ seconds, ∃ r n,
      Runs s.loadAll (d'.advance seconds) r { d'.advance seconds with accesses := n } ∧
        (ServesOnly records r ↔
          (room = records.length →
            ServesOnly records (s.mixture (d.advance seconds) records d.stamp))) := by
  have hNotList : some ".list" ∉ records.map Record.objectId? := by
    rw [hIds]
    simpa using hList
  have hReads (after : Disk) (hFails : after.fails = d.fails) : after.Obeys .read := fun n => by
    rw [hFails]
    exact h.obeys .read n
  rcases Nat.lt_trichotomy room records.length with hShort | hSame | hLong
  · -- the index is gone
    obtain ⟨-, -, hFails, -⟩ := wrote_frame s d (records.take room)
    refine ⟨_, runs_swap_short hRecords h.index (h.obeys .write) (h.obeys .remove) hRoom hShort,
      fun seconds => ?_⟩
    have hIndex := bears_advance ((bears_wrote (records.take room) h.index).counted.removed ".list") seconds
    obtain ⟨n, hRun⟩ := runs_loadAll h.window hIndex (fun ids hIds => by
      rw [idsIn_removed] at hIds
      cases hIds) (hReads _ hFails)
    refine ⟨_, n, hRun, fun _ hEnd => absurd hEnd (Nat.ne_of_lt hShort), fun _ => ?_⟩
    rw [allIn, idsIn_removed]
    exact .inl ⟨_, rfl, rfl⟩
  · -- the old index lists new and old records
    obtain ⟨-, -, hFails, -⟩ := wrote_frame s d records
    subst hSame
    refine ⟨_, runs_swap_unlisted hRecords hIds (h.obeys .write) hRoom, fun seconds => ?_⟩
    have hIndex := bears_advance (bears_wrote records h.index).counted seconds
    obtain ⟨n, hRun⟩ := runs_loadAll h.window hIndex (fun ids hIds id hId => by
      rw [idsIn_unlisted hRecords hNotList] at hIds
      exact bears_advance (bears_wrote records (h.listed seconds ids hIds id hId)).counted seconds)
        (hReads _ hFails)
    refine ⟨_, n, hRun, ?_⟩
    rw [allIn_unlisted hRecords hNotList]
    exact ⟨fun hServed _ => hServed, fun hServed => hServed rfl⟩
  · -- everything is written
    obtain ⟨-, -, hFails, -⟩ := wrote_frame s d records
    refine ⟨_, runs_swap hRecords hIds hNodup h.index (h.obeys .write) (fun other hOther => ?_),
      fun seconds => ?_⟩
    · rw [hRoom, Option.some.injEq] at hOther
      exact hOther ▸ hLong
    have hIndex : ((s.swapped d records ids).advance seconds).Bears s.className ".list" :=
      bears_advance ((bears_wrote records h.index).written _) seconds
    have hListed : ∀ listed,
      s.idsIn ((s.swapped d records ids).advance seconds) = .ok listed → ∀ id ∈ listed,
        ((s.swapped d records ids).advance seconds).Bears s.className id := by
      intro listed hRead id hId
      rw [idsIn_swapped s d records ids seconds hRead] at hId
      have hMem : some id ∈ records.map Record.objectId? := by
        rw [hIds]
        exact List.mem_map.mpr ⟨id, hId, rfl⟩
      obtain ⟨r, hr, hSame⟩ := List.mem_map.mp hMem
      obtain ⟨-, other, hOther, hBears⟩ := hRecords r hr
      rw [hSame, Option.some.injEq] at hOther
      subst hOther
      exact bears_advance ((bears_wrote records hBears).written _) seconds
    obtain ⟨n, hRun⟩ := runs_loadAll h.window hIndex hListed (hReads _ hFails)
    exact ⟨_, n, hRun, fun _ hEnd => absurd hEnd (Nat.ne_of_gt hLong), fun _ =>
      servesOnly_of_swapped hRecords hIds hNodup hList seconds⟩

end LocalStore

namespace Session

variable {κ α : Type} {notify : Notify κ α} {ref : StoreRef} {callback : Option κ}
  {fetch : Work κ α (List Record)}
  {s fetched : Session κ α} {records : List Record} {ids : List String}

/-- What the callbacks do to the disk comes after the replacement. -/
theorem runs_populateBy_then {R : Disk → Disk → Prop} (hRefl : ∀ d, R d d)
    (hTrans : ∀ d d' d'', R d d' → R d' d'' → R d d'') {disk : Disk}
    (hFirst : s.populations.get? ref.number = none)
    (hFetch : Runs fetch { s with populations := s.populations.set ref.number callback.toList }
      (.ok records) fetched)
    (hSwap : Runs (ref.store.swap records) fetched.disk (.ok ()) disk)
    (hNotify : ∀ caller t, ∃ t', Runs (notify caller (.records (.ok records))) t (.ok ()) t' ∧ R t.disk t'.disk) :
    ∃ t, Runs (populateBy notify ref callback fetch) s (.ok (some records)) t ∧ R disk t.disk := by
  have hFetched : Runs (attempt do
      let records ← fetch
      serve (ref.store.swap records)
      return records) { s with populations := s.populations.set ref.number callback.toList }
        (.ok (.ok records))
      { fetched with disk } :=
    runs_attempt (hFetch.bind ((runs_serve hSwap).bind (.ret _ _)))
  have hCallbacks (waiting : List κ) (t : Session κ α) :
      ∃ t', Runs (waiting.forM fun caller => notify caller (.records (.ok records))) t (.ok ()) t' ∧
        R t.disk t'.disk := by
    induction waiting generalizing t with
    | nil => exact ⟨t, .ret _ _, hRefl _⟩
    | cons caller rest ih =>
      obtain ⟨first, hRun, hDisk⟩ := hNotify caller t
      obtain ⟨last, hRest, hLast⟩ := ih first
      exact ⟨last, hRun.bind hRest, hTrans _ _ _ hDisk hLast⟩
  obtain ⟨t, hRun, hDisk⟩ := hCallbacks ((fetched.populations.get? ref.number).getD [])
    { fetched with disk, populations := fetched.populations.erase ref.number }
  refine ⟨t, ?_, hDisk⟩
  rw [populateBy]
  refine .bind (.state s) ?_
  rw [hFirst]
  refine .bind (.put _ s) (.bind hFetched (.bind (.state _) (.bind (.put _ _) (.bind hRun ?_))))
  exact .ret _ _

theorem runs_populateBy {disk : Disk} (hFirst : s.populations.get? ref.number = none)
    (hFetch : Runs fetch { s with populations := s.populations.set ref.number callback.toList }
      (.ok records) fetched)
    (hSwap : Runs (ref.store.swap records) fetched.disk (.ok ()) disk)
    (hNotify : ∀ caller t, ∃ t',
      Runs (notify caller (.records (.ok records))) t (.ok ()) t' ∧ t'.disk = t.disk) :
    ∃ t, Runs (populateBy notify ref callback fetch) s (.ok (some records)) t ∧ t.disk = disk :=
  runs_populateBy_then (R := fun d d' => d' = d) (fun _ => rfl) (fun _ _ _ hFirst hThen => hThen.trans hFirst)
    hFirst hFetch hSwap hNotify

/-- A population that is cut short. The disk has room for some writes, every later one fails, and nothing else
does. The population gives the fetched records. Reading the snapshot back, whenever it is, fails in the cache
or gives the fetched records exactly when this is true of what the old index lists in the one case in which
all records fit and the index does not. -/
theorem populateBy_servesOnly_iff (hFirst : s.populations.get? ref.number = none)
    (hFetch : Runs fetch { s with populations := s.populations.set ref.number callback.toList }
      (.ok records) fetched)
    (hNotify : ∀ caller t, ∃ t',
      Runs (notify caller (.records (.ok records))) t (.ok ()) t' ∧ t'.disk = t.disk)
    (hWorks : ref.store.Works fetched.disk) (hRecords : ref.store.Accepts fetched.disk records)
    (hIds : records.map Record.objectId? = ids.map some) (hNodup : ids.Nodup) (hList : ".list" ∉ ids)
    {room : Nat}
    (hRoom : fetched.disk.room = some room) :
    ∃ t, Runs (populateBy notify ref callback fetch) s (.ok (some records)) t ∧ ∀ seconds, ∃ r n,
      Runs ref.store.loadAll (t.disk.advance seconds) r { t.disk.advance seconds with accesses := n } ∧
        (LocalStore.ServesOnly records r ↔ (room = records.length →
          LocalStore.ServesOnly records
            (ref.store.mixture (fetched.disk.advance seconds) records fetched.disk.stamp))) := by
  obtain ⟨disk, hSwap, hLoad⟩ := LocalStore.swap_servesOnly_iff hWorks hRecords hIds hNodup hList hRoom
  obtain ⟨t, hRun, rfl⟩ := runs_populateBy hFirst hFetch hSwap hNotify
  exact ⟨t, hRun, hLoad⟩

/-- A note with a text. -/
def note (id text : String) : Record := Record.ofFields [("objectId", .string id), ("text", .string text)]

def notes : StoreRef := ⟨0, ⟨"Note", .int 60⟩⟩

/-- What a population of notes fetches. -/
def newNotes : List Record := [note "a" "new", note "c" "new"]

/-- Two cached notes, and room for two writes. -/
def almostFull : Session Unit Unit :=
  { disk := {
      blobs := [(⟨"Note", .string "a"⟩, ⟨.document (note "a" "old").json, 1000.0⟩),
        (⟨"Note", .string "b"⟩, ⟨.document (note "b" "old").json, 1000.0⟩),
        (⟨"Note", .string ".list"⟩, ⟨.document (LocalStore.index ["a", "b"]), 1000.0⟩)]
      room := some 2 }
    app := () }

theorem works_almostFull : notes.store.Works almostFull.disk where
  window := rfl
  index := Disk.bears_of_kind (by decide) _ _
  listed := fun _ _ _ _ _ => Disk.bears_of_kind (by decide) _ _
  obeys := fun _ _ => rfl

theorem fromDocument_note (id text : String) : (note id text).FromDocument := ⟨_, by rfl, rfl⟩

theorem accepts_newNotes : notes.store.Accepts almostFull.disk newNotes := by
  intro r hr
  have hBears (id : String) : almostFull.disk.Bears "Note" id := Disk.bears_of_kind (by decide) _ _
  simp only [newNotes, List.mem_cons, List.not_mem_nil, or_false] at hr
  rcases hr with rfl | rfl
  · exact ⟨fromDocument_note _ _, "a", rfl, hBears _⟩
  · exact ⟨fromDocument_note _ _, "c", rfl, hBears _⟩

theorem objectId?_newNotes : newNotes.map Record.objectId? = ["a", "c"].map some := rfl

theorem populateBy_servesOnly_iff_almostFull :
    ∃ t, Runs (populateBy (fun _ _ => pure ()) notes none (pure newNotes)) almostFull
        (.ok (some newNotes)) t ∧
      ∀ seconds, ∃ r n, Runs notes.store.loadAll (t.disk.advance seconds) r
          { t.disk.advance seconds with accesses := n } ∧
        (LocalStore.ServesOnly newNotes r ↔ (2 = newNotes.length → LocalStore.ServesOnly newNotes
          (notes.store.mixture (almostFull.disk.advance seconds) newNotes almostFull.disk.stamp))) :=
  populateBy_servesOnly_iff rfl (.ret _ _) (fun _ t => ⟨t, .ret _ _, rfl⟩) works_almostFull accepts_newNotes
    objectId?_newNotes (by decide) (by decide) rfl

/-- The old index lists a new note and an old one. -/
theorem populateBy_mixes :
    ∃ t disk, Runs (populateBy (fun _ _ => pure ()) notes none (pure newNotes)) almostFull
        (.ok (some newNotes)) t ∧
      Runs notes.store.loadAll t.disk (.ok [note "a" "new", note "b" "old"]) disk ∧
      ¬ LocalStore.ServesOnly newNotes (.ok [note "a" "new", note "b" "old"]) := by
  have hSwap := LocalStore.runs_swap_unlisted accepts_newNotes objectId?_newNotes
    (works_almostFull.obeys .write) rfl
  have hPopulate : ∃ t, Runs (populateBy (fun _ _ => pure ()) notes none (pure newNotes)) almostFull
      (.ok (some newNotes)) t ∧ t.disk = (notes.store.wrote almostFull.disk newNotes).counted :=
    runs_populateBy rfl (.ret _ _) hSwap fun _ t => ⟨t, .ret _ _, rfl⟩
  obtain ⟨t, hRun, hDisk⟩ := hPopulate
  have hNow : t.disk.now = 1000.0 := hDisk ▸ rfl
  have hFresh : notes.store.outlived (t.disk.now - 1000.0) = false := by
    rw [hNow]
    decide +kernel
  have hIndex : t.disk.blob notes.store.className ".list" =
      some ⟨.document (LocalStore.index ["a", "b"]), 1000.0⟩ := hDisk ▸ rfl
  have hNew : t.disk.blob notes.store.className "a" = some ⟨.document (note "a" "new").json, 1000.0⟩ :=
    hDisk ▸ rfl
  have hOld : t.disk.blob notes.store.className "b" = some ⟨.document (note "b" "old").json, 1000.0⟩ :=
    hDisk ▸ rfl
  have hAll : notes.store.allIn t.disk = .ok [note "a" "new", note "b" "old"] :=
    LocalStore.allIn_of_fresh hIndex hFresh (.cons ⟨fromDocument_note _ _, _, hNew, hFresh⟩
      (.cons ⟨fromDocument_note _ _, _, hOld, hFresh⟩ .nil))
  have hBears (key : String) : t.disk.Bears "Note" key :=
    Disk.bears_of_kind (by rw [hDisk]; decide) _ _
  have hReads : t.disk.Obeys .read := hDisk ▸ fun _ => rfl
  obtain ⟨n, hLoad⟩ := LocalStore.runs_loadAll (s := notes.store) rfl (hBears _)
    (fun _ _ _ _ => hBears _) hReads
  refine ⟨t, _, hRun, hAll ▸ hLoad, ?_⟩
  rintro (⟨e, hError, -⟩ | hSame)
  · cases hError
  · have hIds : [some "a", some "b"] = [some "a", some "c"] :=
      congrArg (List.map Record.objectId?) (Except.ok.inj hSame)
    exact absurd hIds (by decide)

end Session

end RecordCache
