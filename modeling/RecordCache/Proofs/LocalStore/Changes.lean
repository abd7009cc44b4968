import RecordCache.Proofs.LocalStore.Snapshot

/-!
# What a change leaves

On a disk that refuses nothing, `listed?` and `found?` are what a store can serve: the ids of the index, and
the record under an id. Each operation leaves such a disk, and changes the two as it says: a record that is
kept is found under its id and is listed only when it is to be, a removed one goes from both, and a
population replaces the index and puts its records over the old ones.
-/

namespace RecordCache.LocalStore

variable {s : LocalStore} {d d' : Disk} {records : List Record} {ids : List String} {r : Record}
  {key id : String}

/-- The ids that the index lists, when it can be served. -/
def listed? (s : LocalStore) (d : Disk) : Option (List String) := (s.idsIn d).toOption

/-- The record under an id, when it can be served. -/
def found? (s : LocalStore) (d : Disk) (id : String) : Option Record := (s.recordIn d id).toOption

/-- The disk refuses nothing, it bears the index, and what is written now is not too old. -/
structure Ready (s : LocalStore) (d : Disk) : Prop where
  window : s.window.numeric?.isSome
  obeys : ∀ a, d.Obeys a
  room : d.room = none
  index : d.Bears s.className ".list"
  stamp : s.outlived (d.now - d.stamp) = false

/-- The disk refuses nothing, and it bears the index of the class. -/
structure Healthy (className : String) (d : Disk) : Prop where
  obeys : ∀ a, d.Obeys a
  room : d.room = none
  index : d.Bears className ".list"

namespace Healthy

variable {c : String}

theorem written (h : Healthy c d) (key : String) (content : Blob) : Healthy c (d.written c key content) where
  obeys := h.obeys
  room := by
    change d.room.map (· - 1) = none
    rw [h.room]
    rfl
  index := h.index.written content

theorem removed (h : Healthy c d) (key : String) : Healthy c (d.removed c key) :=
  ⟨h.obeys, h.room, h.index.removed key⟩

theorem counted (h : Healthy c d) : Healthy c d.counted := ⟨h.obeys, h.room, h.index.counted⟩

end Healthy

theorem Ready.healthy (h : s.Ready d) : Healthy s.className d := ⟨h.obeys, h.room, h.index⟩

/-- What the store can serve afterwards. -/
structure Leaves (s : LocalStore) (d d' : Disk) (ids : Option (List String))
    (found : String → Option Record) : Prop where
  ready : s.Ready d'
  bears : ∀ key, d.Bears s.className key → d'.Bears s.className key
  ids : s.listed? d' = ids
  records : ∀ id, id ≠ ".list" → s.found? d' id = found id

theorem Leaves.trans {d₁ : Disk} {ids₁ ids₂ : Option (List String)} {found₁ found₂ : String → Option Record}
    (h : s.Leaves d d₁ ids₁ found₁) (h' : s.Leaves d₁ d' ids₂ found₂) : s.Leaves d d' ids₂ found₂ :=
  ⟨h'.ready, fun key hBears => h'.bears key (h.bears key hBears), h'.ids, h'.records⟩

theorem Leaves.congr {ids₁ ids₂ : Option (List String)} {found₁ found₂ : String → Option Record}
    (h : s.Leaves d d' ids₁ found₁) (hIds : ids₁ = ids₂)
    (hFound : ∀ id, id ≠ ".list" → found₁ id = found₂ id) : s.Leaves d d' ids₂ found₂ :=
  ⟨h.ready, h.bears, h.ids.trans hIds, fun id hId => (h.records id hId).trans (hFound id hId)⟩

/-! ### What can be served -/

theorem served_eq {α : Type} {result : Except Error α} (h : Cached result) :
    served result = .ok result.toOption := by
  cases result with
  | ok a => rfl
  | error e => exact if_pos (h e rfl)

theorem cached_reading {α : Type} (s : LocalStore) (d : Disk) (key : String) (read : Json → Option α)
    (expected : String) : Cached (s.reading d key read expected) := by
  intro e hError
  rw [reading] at hError
  split at hError
  · cases hError
    rfl
  · split at hError
    · cases hError
      rfl
    · split at hError <;> cases hError
      rfl

theorem cached_idsIn (s : LocalStore) (d : Disk) : Cached (s.idsIn d) := cached_reading s d _ _ _

theorem cached_recordIn (s : LocalStore) (d : Disk) (id : String) : Cached (s.recordIn d id) := by
  have hReading := cached_reading s d id Json.object? "an object"
  intro e hError
  rw [recordIn] at hError
  cases hRead : s.reading d id Json.object? "an object" with
  | ok fields =>
    rw [hRead] at hError
    cases hError
  | error e' =>
    rw [hRead] at hError
    cases hError
    exact hReading _ hRead

theorem toOption_reading {α : Type} (s : LocalStore) (d : Disk) (key : String) (read : Json → Option α)
    (expected : String) :
    (s.reading d key read expected).toOption =
      (d.blob s.className key).bind fun stored =>
        if s.outlived (d.now - stored.mtime) then none else stored.content.json?.bind read := by
  rw [reading]
  cases d.blob s.className key with
  | none => rfl
  | some stored =>
    simp only [Option.bind_some]
    split
    · rfl
    · cases stored.content.json?.bind read <;> rfl

/-- The blob under a key is there as before, and is not too old if it was not. -/
def Stays (s : LocalStore) (d d' : Disk) (key : String) : Prop :=
  d'.blob s.className key = d.blob s.className key ∧ ∀ stored, d.blob s.className key = some stored →
    s.outlived (d'.now - stored.mtime) = s.outlived (d.now - stored.mtime)

theorem Stays.of_now (hNow : d'.now = d.now) (hBlob : d'.blob s.className key = d.blob s.className key) :
    s.Stays d d' key := ⟨hBlob, fun _ _ => by rw [hNow]⟩

theorem Stays.reading_eq {α : Type} (h : s.Stays d d' key) (read : Json → Option α) (expected : String) :
    (s.reading d' key read expected).toOption = (s.reading d key read expected).toOption := by
  rw [toOption_reading, toOption_reading, h.1]
  exact Option.bind_congr fun stored hStored => by rw [h.2 stored hStored]

theorem Stays.listed?_eq (h : s.Stays d d' ".list") : s.listed? d' = s.listed? d := h.reading_eq ..

theorem Stays.found?_eq (h : s.Stays d d' id) : s.found? d' id = s.found? d id := by
  have hMap (d : Disk) : s.found? d id =
      (s.reading d id Json.object? "an object").toOption.map Record.ofFields := by
    rw [found?, recordIn]
    cases s.reading d id Json.object? "an object" <;> rfl
  rw [hMap, hMap, h.reading_eq]

theorem found?_eq_some_iff : s.found? d id = some r ↔ s.recordIn d id = .ok r := Except.toOption_eq_some_iff

theorem found?_of_record {mtime : Float} (hDocument : r.FromDocument)
    (hRecord : d.blob s.className id = some ⟨.document r.json, mtime⟩)
    (hYoung : s.outlived (d.now - mtime) = false) : s.found? d id = some r := by
  rw [found?, recordIn_of_record hDocument hRecord, hYoung]
  rfl

theorem found?_of_none (hNone : d.blob s.className id = none) : s.found? d id = none := by
  rw [found?, recordIn, reading, hNone]
  rfl

/-! ### Single accesses -/

theorem Ready.written (h : s.Ready d) (key : String) (content : Blob) :
    s.Ready (d.written s.className key content) where
  window := h.window
  obeys := h.obeys
  room := (h.healthy.written key content).room
  index := h.index.written content
  stamp := h.stamp

theorem Ready.removed (h : s.Ready d) (key : String) : s.Ready (d.removed s.className key) :=
  ⟨h.window, h.obeys, h.room, h.index.removed key, h.stamp⟩

theorem leaves_counted (h : s.Ready d) : s.Leaves d d.counted (s.listed? d) (s.found? d) where
  ready := ⟨h.window, h.obeys, h.room, h.index.counted, h.stamp⟩
  bears _ hBears := hBears.counted
  ids := rfl
  records _ _ := rfl

/-- A record that can be kept: a document, under an id of its own whose name the disk bears. -/
structure Keepable (s : LocalStore) (d : Disk) (id : String) (r : Record) : Prop where
  document : r.FromDocument
  objectId : r.objectId? = some id
  bears : d.Bears s.className id
  apart : id ≠ ".list"

theorem leaves_written (h : s.Ready d) (hr : s.Keepable d id r) :
    s.Leaves d (d.written s.className id (.document r.json)) (s.listed? d)
      fun key => if key = id then some r else s.found? d key where
  ready := h.written _ _
  bears _ hBears := hBears.written _
  ids := Stays.listed?_eq (.of_now rfl <| (Disk.blob_written ..).trans (if_neg hr.apart))
  records key _ := by
    split
    · next hKey =>
      subst hKey
      exact found?_of_record hr.document ((Disk.blob_written ..).trans (if_pos rfl)) h.stamp
    · next hKey => exact Stays.found?_eq (.of_now rfl <| (Disk.blob_written ..).trans (if_neg (Ne.symm hKey)))

theorem leaves_writtenIndex (h : s.Ready d) (ids : List String) :
    s.Leaves d (d.written s.className ".list" (.document (index ids))) (some ids) (s.found? d) where
  ready := h.written _ _
  bears _ hBears := hBears.written _
  ids := by
    have hYoung : s.outlived ((d.written s.className ".list" (.document (index ids))).now - d.stamp) = false :=
      h.stamp
    rw [listed?, idsIn_of_index ((Disk.blob_written ..).trans (if_pos rfl)), hYoung]
    rfl
  records _ hKey := Stays.found?_eq (.of_now rfl <| (Disk.blob_written ..).trans (if_neg (Ne.symm hKey)))

theorem leaves_removed (h : s.Ready d) (hApart : id ≠ ".list") :
    s.Leaves d (d.removed s.className id) (s.listed? d)
      fun key => if key = id then none else s.found? d key where
  ready := h.removed _
  bears _ hBears := hBears.removed _
  ids := Stays.listed?_eq (.of_now rfl <| (Disk.blob_removed ..).trans (if_neg hApart))
  records key _ := by
    split
    · next hKey =>
      subst hKey
      exact found?_of_none ((Disk.blob_removed ..).trans (if_pos rfl))
    · next hKey => exact Stays.found?_eq (.of_now rfl <| (Disk.blob_removed ..).trans (if_neg (Ne.symm hKey)))

/-! ### The index -/

theorem runs_listed (hWindow : s.window.numeric?.isSome) (h : Healthy s.className d) :
    Runs (whenServed s.listIds) d (.ok (s.listed? d)) d.counted := by
  have hServed := runs_whenServed (runs_listIds hWindow h.index (h.obeys .read _))
  rwa [served_eq (cached_idsIn s d)] at hServed

theorem runs_saveIndex (h : Healthy s.className d) (ids : List String) :
    Runs (s.saveIndex (ids.map .string)) d (.ok ())
      (d.written s.className ".list" (.document (index ids))) :=
  (runs_whenServed
    (runs_save h.index (isWritable_index ids) (h.obeys .write _) (by simp [h.room]))).map _

/-- The disk after an id was put into the index, which is written anew if it can be served. -/
def enlisted (s : LocalStore) (d : Disk) (id : String) : Disk :=
  match s.listed? d with
  | some ids =>
    d.counted.written s.className ".list" (.document (index (if id ∈ ids then ids else ids ++ [id])))
  | none => d.counted

theorem runs_enlist (hWindow : s.window.numeric?.isSome) (h : Healthy s.className d) (id : String) :
    Runs (s.enlist (.array [.string id])) d (.ok ()) (s.enlisted d id) := by
  rw [enlist, enlisted]
  refine .bind (runs_listed hWindow h) ?_
  cases s.listed? d with
  | none => exact .ret _ _
  | some ids =>
    have hAdd : ([.string id] : List Json).foldl addId (ids.map .string) =
        (if id ∈ ids then ids else ids ++ [id]).map .string := by
      rw [List.foldl_cons, List.foldl_nil, addId, Json.among_strings]
      by_cases hMem : id ∈ ids <;> simp [hMem]
    refine .bind (.ofExcept (.ok [Json.string id]) _) ?_
    rw [hAdd]
    exact runs_saveIndex h.counted _

/-- An index that can be served lists the id afterwards; another one stays as it is. -/
theorem leaves_enlisted (h : s.Ready d) (id : String) :
    s.Leaves d (s.enlisted d id) ((s.listed? d).map fun ids => if id ∈ ids then ids else ids ++ [id])
      (s.found? d) := by
  have hCounted := leaves_counted h
  rw [enlisted]
  cases hListed : s.listed? d with
  | none => exact hCounted.congr hListed fun _ _ => rfl
  | some ids => exact hCounted.trans (leaves_writtenIndex hCounted.ready _)

/-- The disk after a record was removed: an index that lists its id is written anew if it can be served. -/
def forgotten (s : LocalStore) (d : Disk) (id : String) : Disk :=
  match s.listed? d with
  | some ids =>
    if id ∈ ids then
      (d.removed s.className id).counted.written s.className ".list" (.document (index (ids.erase id)))
    else (d.removed s.className id).counted
  | none => (d.removed s.className id).counted

theorem listed?_removed (hApart : id ≠ ".list") : s.listed? (d.removed s.className id) = s.listed? d :=
  Stays.listed?_eq (.of_now rfl <| (Disk.blob_removed ..).trans (if_neg hApart))

theorem runs_remove (hWindow : s.window.numeric?.isSome) (h : Healthy s.className d) (hBears : d.Bears s.className id)
    (hApart : id ≠ ".list") : Runs (s.remove (.string id)) d (.ok ()) (s.forgotten d id) := by
  have hListing := runs_listed hWindow (h.removed id)
  rw [listed?_removed hApart] at hListing
  rw [remove, forgotten]
  refine .bind (runs_discardBlob hBears (h.obeys .remove _)) (.bind hListing ?_)
  cases s.listed? d with
  | none => exact .ret _ _
  | some ids =>
    by_cases hMem : id ∈ ids
    · simp only [Json.string?, List.contains_iff_mem.mpr hMem, if_true, if_pos hMem]
      exact runs_saveIndex (h.removed id).counted _
    · have hAbsent : ids.contains id = false := by simpa using hMem
      simp only [Json.string?, hAbsent, Bool.false_eq_true, if_false, if_neg hMem]
      exact .ret _ _

/-! ### Records -/

theorem Keepable.isWritable (hr : s.Keepable d id r) : r.json.isWritable = true :=
  Json.isWritable_of_isDocument _ hr.document.isDocument_json

section Kept

variable (h : Healthy s.className d) (hId : r.objectId? = some id) (hWritable : r.json.isWritable = true)
  (hBears : d.Bears s.className id)

include h hId hWritable hBears

theorem runs_saveRecord : Runs (s.saveRecord r) d (.ok ()) (d.written s.className id (.document r.json)) := by
  rw [saveRecord, idJson_eq hId]
  exact runs_save hBears hWritable (h.obeys .write _) (by simp [h.room])

theorem runs_keep : Runs (s.persist r false) d (.ok ()) (d.written s.className id (.document r.json)) :=
  .bind (runs_whenServed (runs_saveRecord h hId hWritable hBears)) (.ret _ _)

theorem runs_create (hWindow : s.window.numeric?.isSome) :
    Runs (s.persist r true) d (.ok ()) (s.enlisted (d.written s.className id (.document r.json)) id) := by
  refine .bind (runs_whenServed (runs_saveRecord h hId hWritable hBears)) ?_
  rw [idJson_eq hId]
  exact runs_enlist hWindow (h.written _ _) id

end Kept

theorem leaves_keep (h : s.Ready d) (hr : s.Keepable d id r) :
    ∃ d', Runs (s.persist r false) d (.ok ()) d' ∧
      s.Leaves d d' (s.listed? d) fun key => if key = id then some r else s.found? d key :=
  ⟨_, runs_keep h.healthy hr.objectId hr.isWritable hr.bears, leaves_written h hr⟩

theorem leaves_create (h : s.Ready d) (hr : s.Keepable d id r) :
    ∃ d', Runs (s.persist r true) d (.ok ()) d' ∧
      s.Leaves d d' ((s.listed? d).map fun ids => if id ∈ ids then ids else ids ++ [id])
        fun key => if key = id then some r else s.found? d key := by
  have hWritten := leaves_written h hr
  exact ⟨_, runs_create h.healthy hr.objectId hr.isWritable hr.bears h.window,
    (hWritten.trans (leaves_enlisted hWritten.ready id)).congr (by rw [hWritten.ids]) hWritten.records⟩

theorem leaves_remove (h : s.Ready d) (hBears : d.Bears s.className id) (hApart : id ≠ ".list") :
    ∃ d', Runs (s.remove (.string id)) d (.ok ()) d' ∧
      s.Leaves d d' ((s.listed? d).map (·.erase id)) fun key => if key = id then none else s.found? d key := by
  have hRemoved := leaves_removed h hApart
  have hCounted := (hRemoved.trans (leaves_counted hRemoved.ready)).congr hRemoved.ids hRemoved.records
  refine ⟨_, runs_remove h.window h.healthy hBears hApart, ?_⟩
  rw [forgotten]
  cases hListed : s.listed? d with
  | none => exact hCounted.congr hListed fun _ _ => rfl
  | some ids =>
    simp only
    split
    · exact (hCounted.trans (leaves_writtenIndex hCounted.ready _)).congr rfl hCounted.records
    · next hMem =>
      refine hCounted.congr ?_ fun _ _ => rfl
      rw [hListed, Option.map_some, List.erase_of_not_mem hMem]

theorem runs_look (hWindow : s.window.numeric?.isSome) (h : Healthy s.className d)
    (hBears : d.Bears s.className id) :
    Runs (whenServed (s.get (.string id))) d (.ok (s.found? d id)) d.counted := by
  have hServed := runs_whenServed (runs_get hWindow hBears (h.obeys .read _))
  rwa [served_eq (cached_recordIn s d id)] at hServed

theorem leaves_look (h : s.Ready d) (hBears : d.Bears s.className id) :
    ∃ d', Runs (whenServed (s.get (.string id))) d (.ok (s.found? d id)) d' ∧
      s.Leaves d d' (s.listed? d) (s.found? d) :=
  ⟨_, runs_look h.window h.healthy hBears, leaves_counted h⟩

/-! ### Snapshots -/

theorem leaves_swap (h : s.Ready d) (hRecords : s.Accepts d records)
    (hIds : records.map Record.objectId? = ids.map some) (hNodup : ids.Nodup) :
    ∃ d', Runs (s.swap records) d (.ok ()) d' ∧
      s.Leaves d d' (some ids) fun key =>
        (records.reverse.find? fun r => r.objectId? = some key).or (s.found? d key) := by
  obtain ⟨-, hNow, hFails, hRoom⟩ := wrote_frame s d records
  have hWrote : s.Ready (s.wrote d records) :=
    { window := h.window
      obeys := fun a n => by
        rw [hFails]
        exact h.obeys a n
      room := by rw [hRoom, h.room, Option.map_none]
      index := bears_wrote records h.index
      stamp := by
        rw [hNow, stamp_wrote]
        exact h.stamp }
  have hIndex := leaves_writtenIndex hWrote ids
  refine ⟨_, runs_swap hRecords hIds hNodup h.index (h.obeys .write) (by simp [h.room]),
    hIndex.ready, fun key hBears => hIndex.bears key (bears_wrote records hBears), hIndex.ids,
    fun key hKey => (hIndex.records key hKey).trans ?_⟩
  have hBlob := blob_wrote (s := s) (d := d) hRecords.isSome key
  cases hFound : records.reverse.find? fun r => r.objectId? = some key with
  | none =>
    rw [hFound] at hBlob
    exact Stays.found?_eq (.of_now hNow hBlob)
  | some r =>
    rw [hFound] at hBlob
    have hMem := List.mem_reverse.mp (List.mem_of_find?_eq_some hFound)
    exact found?_of_record (hRecords r hMem).1 hBlob (hNow ▸ h.stamp)

end RecordCache.LocalStore
