import RecordCache.Proofs.LocalStore.Turns

/-!
# The ledger of a class

What is done to the cache of a class, through stores with whatever windows, and when. The ledger tells from that
alone what the blobs of the class hold and when each was written last. A store reads of it what is not too old for
the store's own window; by that a writer decides whether it touches the index, and an update whether it finds a
record to change.
-/

namespace RecordCache.LocalStore

variable {s : LocalStore} {c : String} {d d₁ d' : Disk} {id : String}

inductive Deed
  /-- A population has brought all records. -/
  | populate (records : List Record)
  /-- A batch has brought single records. -/
  | receive (records : List Record)
  | save (r : Record)
  | update (id : String) (change : Record → Record)
  | delete (id : String)

/-- The turns in which it reaches the cache, where these records can be served. -/
def Deed.turns (found : String → Option Record) : Deed → List Turn
  | populate records => [.replace records]
  | receive records => records.map .keep
  | save r => [.create r]
  | update id change => .look id (found id).isSome :: ((found id).map change).toList.map .keep
  | delete id => [.remove id]

structure Entry where
  /-- The store that the class had; none while it was not cached. -/
  store : Option LocalStore
  now : Float
  /-- The time of what was written then. -/
  stamp : Float
  deed : Deed

/-- Whether what a turn does depends on what the store can serve. -/
def Turn.reads : Turn → Bool
  | create _ | remove _ | look .. => true
  | replace _ | keep _ | elapse _ => false

/-- Whether a turn writes the index, where a store reads these ids. -/
def Turn.rewrites (ids : Option (List String)) : Turn → Bool
  | replace _ => true
  | create _ => ids.isSome
  | remove id => ids.any (·.contains id)
  | keep _ | look .. | elapse _ => false

/-- With the time of the last write. -/
structure Dated (α : Type) where
  value : α
  stamp : Float

/-- What a store reads at a time. -/
def Dated.fresh? {α : Type} (s : LocalStore) (now : Float) (k : Dated α) : Option α :=
  if s.outlived (now - k.stamp) then none else some k.value

structure Ledger where
  index : Option (Dated (List String)) := none
  record : String → Option (Dated Record) := fun _ => none

namespace Ledger

def listed? (l : Ledger) (s : LocalStore) (now : Float) : Option (List String) := l.index.bind (·.fresh? s now)

def found? (l : Ledger) (s : LocalStore) (now : Float) (id : String) : Option Record :=
  (l.record id).bind (·.fresh? s now)

def take (s : LocalStore) (now stamp : Float) (l : Ledger) (t : Turn) : Ledger where
  index :=
    if t.rewrites (l.listed? s now) then (t.listedAfter (l.listed? s now)).map (⟨·, stamp⟩) else l.index
  record id := match t.record? id with
    | some r => r.map (⟨·, stamp⟩)
    | none => l.record id

/-- What is done while the class is not cached does not come to the cache. -/
def enter (l : Ledger) (e : Entry) : Ledger :=
  match e.store with
  | some s => (e.deed.turns (l.found? s e.now)).foldl (take s e.now e.stamp) l
  | none => l

def ofEntries (entries : List Entry) : Ledger := entries.foldl enter {}

/-- The blobs of a class are those of the ledger. -/
structure Describes (l : Ledger) (c : String) (d : Disk) : Prop where
  index : d.blob c ".list" = l.index.map fun k => ⟨.document (LocalStore.index k.value), k.stamp⟩
  record : ∀ id, id ≠ ".list" → d.blob c id = (l.record id).map fun k => ⟨.document k.value.json, k.stamp⟩
  nodup : ∀ k, l.index = some k → k.value.Nodup
  bears : ∀ k, l.index = some k → ∀ id ∈ k.value, d.Bears c id ∧ id ≠ ".list"
  own : ∀ id k, l.record id = some k → k.value.FromDocument ∧ k.value.objectId? = some id

variable {l : Ledger}

theorem value_of_bind {α : Type} {k? : Option (Dated α)} {now : Float} {a : α} (h : k?.bind (·.fresh? s now) = some a) :
    ∃ k, k? = some k ∧ k.value = a ∧ s.outlived (now - k.stamp) = false := by
  obtain ⟨k, hKnown, hFresh⟩ := Option.bind_eq_some_iff.mp h
  rw [Dated.fresh?] at hFresh
  split at hFresh
  · cases hFresh
  · next hAge => exact ⟨k, hKnown, Option.some.inj hFresh, by simpa using hAge⟩

theorem value_of_listed? {ids : List String} {now : Float} (h : l.listed? s now = some ids) :
    ∃ k, l.index = some k ∧ k.value = ids ∧ s.outlived (now - k.stamp) = false := value_of_bind h

theorem value_of_found? {now : Float} {r : Record} (h : l.found? s now id = some r) :
    ∃ k, l.record id = some k ∧ k.value = r ∧ s.outlived (now - k.stamp) = false := value_of_bind h

/-! ### The entries of a turn -/

theorem eq_of_same {l l' : Ledger} (hIndex : l.index = l'.index) (hRecord : ∀ id, l.record id = l'.record id) :
    l = l' := by
  cases l
  cases l'
  congr
  exact funext hRecord

/-- The record is brought under its id. -/
def bring (l : Ledger) (id : String) (r : Record) (stamp : Float) : Ledger :=
  { l with record := fun other => if other = id then some ⟨r, stamp⟩ else l.record other }

def forget (l : Ledger) (id : String) : Ledger :=
  { l with record := fun other => if other = id then none else l.record other }

/-- The records are brought one after another, under their own ids. -/
def bringAll (l : Ledger) (records : List Record) (stamp : Float) : Ledger :=
  { l with record := fun id =>
      ((records.reverse.find? fun r => r.objectId? = some id).map (⟨·, stamp⟩)).or (l.record id) }

section Take

variable {records : List Record} {r : Record} {ids : List String} {now stamp : Float}

theorem take_replace (s : LocalStore) (now stamp : Float) (l : Ledger)
    (hIds : records.map Record.objectId? = ids.map some) :
    take s now stamp l (.replace records) = { l.bringAll records stamp with index := some ⟨ids, stamp⟩ } := by
  refine eq_of_same ?_ fun id => ?_
  · simp [take, Turn.rewrites, Turn.listedAfter, filterMap_objectId? hIds]
  · simp only [take, Turn.record?, bringAll]
    cases records.reverse.find? fun r => r.objectId? = some id <;> rfl

theorem take_keep (s : LocalStore) (now stamp : Float) (l : Ledger) (hId : r.objectId? = some id) :
    take s now stamp l (.keep r) = l.bring id r stamp := by
  refine eq_of_same rfl fun other => ?_
  by_cases hSame : other = id
  · simp [take, Turn.record?, bring, hId, hSame]
  · simp [take, Turn.record?, bring, hId, hSame, Ne.symm hSame]

theorem take_create (s : LocalStore) (now stamp : Float) (l : Ledger) (hId : r.objectId? = some id) :
    take s now stamp l (.create r) =
      match l.listed? s now with
      | some ids => { l.bring id r stamp with index := some ⟨if id ∈ ids then ids else ids ++ [id], stamp⟩ }
      | none => l.bring id r stamp := by
  have hRecord := congrArg Ledger.record (take_keep s now stamp l hId)
  cases hListed : l.listed? s now with
  | none => exact eq_of_same (by simp [take, Turn.rewrites, hListed, bring]) fun other => congrFun hRecord other
  | some ids =>
    refine eq_of_same ?_ fun other => congrFun hRecord other
    simp [take, Turn.rewrites, Turn.listedAfter, hListed, hId]

theorem take_remove (s : LocalStore) (now stamp : Float) (l : Ledger) (id : String) :
    take s now stamp l (.remove id) =
      match l.listed? s now with
      | some ids => if id ∈ ids then { l.forget id with index := some ⟨ids.erase id, stamp⟩ } else l.forget id
      | none => l.forget id := by
  have hRecord (other : String) : (take s now stamp l (.remove id)).record other = (l.forget id).record other := by
    by_cases hSame : other = id
    · simp [take, Turn.record?, forget, hSame]
    · simp [take, Turn.record?, forget, hSame, Ne.symm hSame]
  cases hListed : l.listed? s now with
  | none => exact eq_of_same (by simp [take, Turn.rewrites, hListed, forget]) hRecord
  | some ids =>
    by_cases hMem : id ∈ ids
    · simp only [hMem, if_true]
      exact eq_of_same (by simp [take, Turn.rewrites, Turn.listedAfter, hListed, hMem]) hRecord
    · simp only [hMem, if_false]
      exact eq_of_same (by simp [take, Turn.rewrites, hListed, hMem, forget]) hRecord

theorem take_look (s : LocalStore) (now stamp : Float) (l : Ledger) (id : String) (hit : Bool) :
    take s now stamp l (.look id hit) = l := eq_of_same rfl fun _ => rfl

end Take

namespace Describes

theorem listed?_eq (h : l.Describes s.className d) : s.listed? d = l.listed? s d.now := by
  have hIndex := h.index
  rw [Ledger.listed?]
  cases hKnown : l.index with
  | none =>
    rw [hKnown] at hIndex
    rw [LocalStore.listed?, idsIn, reading, hIndex]
    rfl
  | some known =>
    rw [hKnown] at hIndex
    rw [LocalStore.listed?, idsIn_of_index hIndex, Option.bind_some, Dated.fresh?]
    split <;> rfl

theorem found?_eq (h : l.Describes s.className d) (hApart : id ≠ ".list") : s.found? d id = l.found? s d.now id := by
  have hBlob := h.record id hApart
  rw [Ledger.found?]
  cases hKnown : l.record id with
  | none =>
    rw [hKnown] at hBlob
    exact found?_of_none hBlob
  | some known =>
    rw [hKnown] at hBlob
    rw [LocalStore.found?, recordIn_of_record (h.own id _ hKnown).1 hBlob, Option.bind_some, Dated.fresh?]
    split <;> rfl

/-! ### Single accesses -/

theorem of_same (h : l.Describes c d) (hBlob : ∀ key, d'.blob c key = d.blob c key)
    (hBears : ∀ key, d.Bears c key → d'.Bears c key) : l.Describes c d' where
  index := (hBlob _).trans h.index
  record id hApart := (hBlob _).trans (h.record id hApart)
  nodup := h.nodup
  bears k hIndex id hMem := ⟨hBears id (h.bears k hIndex id hMem).1, (h.bears k hIndex id hMem).2⟩
  own := h.own

theorem counted (h : l.Describes c d) : l.Describes c d.counted := h.of_same (fun _ => rfl) fun _ => .counted

theorem writtenIndex (h : l.Describes c d) {ids : List String} (hNodup : ids.Nodup)
    (hIds : ∀ id ∈ ids, d.Bears c id ∧ id ≠ ".list") :
    Describes { l with index := some ⟨ids, d.stamp⟩ } c (d.written c ".list" (.document (LocalStore.index ids))) where
  index := (Disk.blob_written ..).trans (if_pos rfl)
  record id hApart := ((Disk.blob_written ..).trans (if_neg (Ne.symm hApart))).trans (h.record id hApart)
  nodup k hIndex := by
    cases hIndex
    exact hNodup
  bears k hIndex id hMem := by
    cases hIndex
    exact ⟨(hIds id hMem).1.written _, (hIds id hMem).2⟩
  own := h.own

theorem writtenRecord (h : l.Describes s.className d) {r : Record} (hr : s.Keepable d id r) :
    (l.bring id r d.stamp).Describes s.className (d.written s.className id (.document r.json)) where
  index := ((Disk.blob_written ..).trans (if_neg hr.apart)).trans h.index
  record other hApart := by
    rw [Disk.blob_written]
    by_cases hSame : id = other
    · simp [bring, hSame]
    · simp [bring, hSame, Ne.symm hSame, h.record other hApart]
  nodup := h.nodup
  bears k hIndex other hMem := ⟨(h.bears k hIndex other hMem).1.written _, (h.bears k hIndex other hMem).2⟩
  own other k hRecord := by
    simp only [bring] at hRecord
    split at hRecord
    · next hSame =>
      cases hRecord
      rw [hSame]
      exact ⟨hr.document, hr.objectId⟩
    · exact h.own other k hRecord

theorem wroteRecords {records : List Record} (h : l.Describes s.className d) (hRecords : s.Accepts d records)
    (hApart : ∀ r ∈ records, r.objectId? ≠ some ".list") :
    (l.bringAll records d.stamp).Describes s.className (s.wrote d records) := by
  have hNone : (records.reverse.find? fun r => r.objectId? = some ".list") = none :=
    List.find?_eq_none.mpr fun r hr => by simpa using hApart r (List.mem_reverse.mp hr)
  refine ⟨?_, fun id hId => ?_, h.nodup, fun k hIndex id hMem => ?_, fun id k hRecord => ?_⟩
  · rw [blob_wrote hRecords.isSome, hNone]
    exact h.index
  · rw [blob_wrote hRecords.isSome, bringAll]
    simp only
    cases records.reverse.find? fun r => r.objectId? = some id with
    | some r => rfl
    | none => exact h.record id hId
  · exact ⟨bears_wrote records (h.bears k hIndex id hMem).1, (h.bears k hIndex id hMem).2⟩
  · rw [bringAll] at hRecord
    simp only at hRecord
    cases hFound : records.reverse.find? fun r => r.objectId? = some id with
    | some r =>
      rw [hFound] at hRecord
      cases hRecord
      have hMem := List.mem_reverse.mp (List.mem_of_find?_eq_some hFound)
      exact ⟨(hRecords r hMem).1, by simpa using List.find?_some hFound⟩
    | none =>
      rw [hFound] at hRecord
      exact h.own id k hRecord

theorem removedRecord (h : l.Describes c d) (hApart : id ≠ ".list") :
    (l.forget id).Describes c (d.removed c id) where
  index := ((Disk.blob_removed ..).trans (if_neg hApart)).trans h.index
  record other hOther := by
    rw [Disk.blob_removed]
    by_cases hSame : id = other
    · simp [forget, hSame]
    · simp [forget, hSame, Ne.symm hSame, h.record other hOther]
  nodup := h.nodup
  bears k hIndex other hMem := ⟨(h.bears k hIndex other hMem).1.removed _, (h.bears k hIndex other hMem).2⟩
  own other k hRecord := by
    simp only [forget] at hRecord
    split at hRecord
    · cases hRecord
    · exact h.own other k hRecord

end Describes

end Ledger

theorem Healthy.wrote (h : Healthy s.className d) (records : List Record) :
    Healthy s.className (s.wrote d records) where
  obeys a n := by
    obtain ⟨-, -, hFails, -⟩ := wrote_frame s d records
    rw [hFails]
    exact h.obeys a n
  room := by
    obtain ⟨-, -, -, hRoom⟩ := wrote_frame s d records
    rw [hRoom, h.room, Option.map_none]
  index := bears_wrote records h.index

/-! ### One turn -/

/-- What is left: a disk that is as it was, but for the blobs, which are those of the ledger. -/
structure Ledger.Leaves (l : Ledger) (c : String) (d d' : Disk) : Prop where
  describes : l.Describes c d'
  healthy : Healthy c d'
  now : d'.now = d.now
  kind : d'.kind = d.kind
  stamp : d'.stamp = d.stamp
  bears : ∀ key, d.Bears c key → d'.Bears c key

namespace Ledger

variable {l : Ledger} {records : List Record} {r : Record}

theorem Leaves.trans {l' : Ledger} (h : l.Leaves c d d₁) (h' : l'.Leaves c d₁ d') : l'.Leaves c d d' :=
  ⟨h'.describes, h'.healthy, h'.now.trans h.now, h'.kind.trans h.kind, h'.stamp.trans h.stamp,
    fun key hBears => h'.bears key (h.bears key hBears)⟩

section Accesses

variable (h : l.Describes s.className d) (hHealthy : Healthy s.className d)

include h hHealthy

theorem leaves_counted : l.Leaves s.className d d.counted :=
  ⟨h.counted, hHealthy.counted, rfl, rfl, rfl, fun _ => .counted⟩

theorem leaves_writtenIndex {ids : List String} (hNodup : ids.Nodup)
    (hIds : ∀ id ∈ ids, d.Bears s.className id ∧ id ≠ ".list") :
    Leaves { l with index := some ⟨ids, d.stamp⟩ } s.className d
      (d.written s.className ".list" (.document (LocalStore.index ids))) :=
  ⟨h.writtenIndex hNodup hIds, hHealthy.written _ _, rfl, rfl, rfl, fun _ hBears => hBears.written _⟩

theorem leaves_writtenRecord (hr : s.Keepable d id r) :
    (l.bring id r d.stamp).Leaves s.className d (d.written s.className id (.document r.json)) :=
  ⟨h.writtenRecord hr, hHealthy.written _ _, rfl, rfl, rfl, fun _ hBears => hBears.written _⟩

theorem leaves_removedRecord (hApart : id ≠ ".list") : (l.forget id).Leaves s.className d (d.removed s.className id) :=
  ⟨h.removedRecord hApart, hHealthy.removed _, rfl, rfl, rfl, fun _ hBears => hBears.removed _⟩

/-! ### One turn -/

theorem leaves_replace {ids : List String} (hRecords : s.Accepts d records)
    (hIds : records.map Record.objectId? = ids.map some) (hNodup : ids.Nodup) (hList : ".list" ∉ ids) :
    ∃ d', s.Takes d (.replace records) d' ∧
      (take s d.now d.stamp l (.replace records)).Leaves s.className d d' := by
  have hRun : s.Takes d (.replace records) _ :=
    runs_swap hRecords hIds hNodup hHealthy.index (hHealthy.obeys .write) (by simp [hHealthy.room])
  obtain ⟨hKind, hNow, -, -⟩ := wrote_frame s d records
  have hBears (key : String) (hKey : d.Bears s.className key) : (s.wrote d records).Bears s.className key :=
    bears_wrote records hKey
  have hApart : ∀ r ∈ records, r.objectId? ≠ some ".list" := by
    intro r hr hId
    have hMem : some ".list" ∈ ids.map some := hIds ▸ List.mem_map.mpr ⟨r, hr, hId⟩
    simp [hList] at hMem
  have hWrote := h.wroteRecords hRecords hApart
  refine ⟨_, hRun, ?_, (hHealthy.wrote records).written _ _, hNow, hKind, stamp_wrote s d records,
    fun key hKey => (hBears key hKey).written _⟩
  have hIds' : ∀ id ∈ ids, (s.wrote d records).Bears s.className id ∧ id ≠ ".list" := by
    intro id hMem
    have hListed : some id ∈ records.map Record.objectId? := hIds ▸ List.mem_map.mpr ⟨id, hMem, rfl⟩
    obtain ⟨r, hr, hId⟩ := List.mem_map.mp hListed
    obtain ⟨-, own, hOwn, hName⟩ := hRecords r hr
    cases hId.symm.trans hOwn
    exact ⟨hBears id hName, ne_of_mem_of_not_mem hMem hList⟩
  have hIndexed := hWrote.writtenIndex hNodup hIds'
  rw [stamp_wrote] at hIndexed
  rw [take_replace s d.now d.stamp l hIds]
  exact hIndexed

theorem leaves_keep (hr : s.Keepable d id r) :
    ∃ d', s.Takes d (.keep r) d' ∧ (take s d.now d.stamp l (.keep r)).Leaves s.className d d' := by
  refine ⟨_, runs_keep hHealthy hr.objectId hr.isWritable hr.bears, ?_⟩
  rw [take_keep s d.now d.stamp l hr.objectId]
  exact leaves_writtenRecord h hHealthy hr

/-- The index lists one id more, if the store can read it. -/
theorem leaves_enlisted (hBears : d.Bears s.className id) (hApart : id ≠ ".list") :
    Leaves (match l.listed? s d.now with
      | some ids => { l with index := some ⟨if id ∈ ids then ids else ids ++ [id], d.stamp⟩ }
      | none => l) s.className d (s.enlisted d id) := by
  have hCounted := leaves_counted h hHealthy
  rw [enlisted, h.listed?_eq]
  cases hListed : l.listed? s d.now with
  | none => exact hCounted
  | some ids =>
    obtain ⟨k, hIndex, rfl, -⟩ := value_of_listed? hListed
    have hNodup : (if id ∈ k.value then k.value else k.value ++ [id]).Nodup := by
      split
      · exact h.nodup k hIndex
      · next hNew =>
        exact List.nodup_append.mpr ⟨h.nodup k hIndex, List.nodup_singleton id, fun a ha b hb =>
          List.mem_singleton.mp hb ▸ ne_of_mem_of_not_mem ha hNew⟩
    have hIds : ∀ other ∈ (if id ∈ k.value then k.value else k.value ++ [id]),
        d.counted.Bears s.className other ∧ other ≠ ".list" := by
      intro other hOther
      have hCase : other ∈ k.value ∨ other = id := by
        split at hOther
        · exact .inl hOther
        · simpa using hOther
      obtain hOld | rfl := hCase
      · exact ⟨(h.bears k hIndex other hOld).1.counted, (h.bears k hIndex other hOld).2⟩
      · exact ⟨hBears.counted, hApart⟩
    exact hCounted.trans (leaves_writtenIndex hCounted.describes hCounted.healthy hNodup hIds)

theorem leaves_create (hWindow : s.window.numeric?.isSome) (hr : s.Keepable d id r) :
    ∃ d', s.Takes d (.create r) d' ∧ (take s d.now d.stamp l (.create r)).Leaves s.className d d' := by
  have hWritten := leaves_writtenRecord h hHealthy hr
  have hLeaves := leaves_enlisted hWritten.describes hWritten.healthy (hWritten.bears id hr.bears) hr.apart
  refine ⟨_, runs_create hHealthy hr.objectId hr.isWritable hr.bears hWindow, ?_⟩
  rw [take_create s d.now d.stamp l hr.objectId]
  exact hWritten.trans hLeaves

theorem leaves_remove (hWindow : s.window.numeric?.isSome) (hBears : d.Bears s.className id) (hApart : id ≠ ".list") :
    ∃ d', s.Takes d (.remove id) d' ∧ (take s d.now d.stamp l (.remove id)).Leaves s.className d d' := by
  have hRemoved := leaves_removedRecord h hHealthy hApart
  have hCounted := hRemoved.trans (leaves_counted hRemoved.describes hRemoved.healthy)
  refine ⟨_, runs_remove hWindow hHealthy hBears hApart, ?_⟩
  rw [take_remove, forgotten, h.listed?_eq]
  cases hListed : l.listed? s d.now with
  | none => exact hCounted
  | some ids =>
    by_cases hMem : id ∈ ids
    · obtain ⟨k, hIndex, rfl, -⟩ := value_of_listed? hListed
      have hNodup : (k.value.erase id).Nodup := (h.nodup k hIndex).erase id
      have hIds : ∀ other ∈ k.value.erase id,
          (d.removed s.className id).counted.Bears s.className other ∧ other ≠ ".list" := fun other hOther =>
        hCounted.describes.bears k hIndex other (List.mem_of_mem_erase hOther)
      simp only [hMem, if_true]
      exact hCounted.trans (leaves_writtenIndex hCounted.describes hCounted.healthy hNodup hIds)
    · simp only [hMem, if_false]
      exact hCounted

theorem leaves_look (hWindow : s.window.numeric?.isSome) (hBears : d.Bears s.className id) (hApart : id ≠ ".list") :
    ∃ d', s.Takes d (.look id (l.found? s d.now id).isSome) d' ∧ l.Leaves s.className d d' :=
  ⟨_, ⟨_, runs_look hWindow hHealthy hBears, congrArg _ (h.found?_eq hApart)⟩, leaves_counted h hHealthy⟩

end Accesses

theorem leaves_of_takes {t : Turn} (hTakes : s.Takes d t d') (h : l.Describes s.className d)
    (hHealthy : Healthy s.className d) (ht : t.Accepted s d) (hWindow : t.reads = true → s.window.numeric?.isSome)
    (hTime : ∀ seconds, t ≠ .elapse seconds) : (take s d.now d.stamp l t).Leaves s.className d d' := by
  -- a turn that is taken leaves one disk, so it is enough that one taking of it leaves what the ledger says
  have hTaken : ∃ d'', s.Takes d t d'' ∧ (take s d.now d.stamp l t).Leaves s.className d d'' := by
    cases t with
    | replace records =>
      obtain ⟨ids, hRecords, hIds, hNodup, hList⟩ := ht
      exact leaves_replace h hHealthy hRecords hIds hNodup hList
    | keep r =>
      obtain ⟨id, hr⟩ := ht
      exact leaves_keep h hHealthy hr
    | create r =>
      obtain ⟨id, hr⟩ := ht
      exact leaves_create h hHealthy (hWindow rfl) hr
    | remove id => exact leaves_remove h hHealthy (hWindow rfl) ht.1 ht.2
    | look id hit =>
      obtain ⟨d'', hLook, hLeaves⟩ := leaves_look h hHealthy (hWindow rfl) ht.1 ht.2
      obtain ⟨found, hRun, hFound⟩ := hTakes
      obtain ⟨found', hRun', hFound'⟩ := hLook
      cases (hRun.unique hRun').1
      rw [take_look, ← hFound, hFound']
      exact ⟨d'', ⟨found, hRun', hFound'⟩, hLeaves⟩
    | elapse seconds => exact absurd rfl (hTime seconds)
  obtain ⟨d'', hTaken, hLeaves⟩ := hTaken
  cases hTakes.unique hTaken
  exact hLeaves

/-- Turns that are taken one after another at one time do to the blobs what the ledger says. -/
theorem leaves_of_happens {turns : List Turn} (hTurns : s.Happens d turns d') (h : l.Describes s.className d)
    (hHealthy : Healthy s.className d) (ht : ∀ t ∈ turns, t.Accepted s d)
    (hWindow : ∀ t ∈ turns, t.reads = true → s.window.numeric?.isSome)
    (hTime : ∀ seconds, .elapse seconds ∉ turns) :
    (turns.foldl (take s d.now d.stamp) l).Leaves s.className d d' := by
  induction hTurns generalizing l with
  | nil d => exact ⟨h, hHealthy, rfl, rfl, rfl, fun _ hBears => hBears⟩
  | @cons d d₁ d' t turns hTakes hRest ih =>
    have hFirst := leaves_of_takes hTakes h hHealthy (ht t List.mem_cons_self) (hWindow t List.mem_cons_self)
      fun seconds hSame => hTime seconds (hSame ▸ List.mem_cons_self)
    have hTail := ih hFirst.describes hFirst.healthy
      (fun t hMem => (ht t (List.mem_cons_of_mem _ hMem)).mono hFirst.bears)
      (fun t hMem => hWindow t (List.mem_cons_of_mem _ hMem))
      fun seconds hMem => hTime seconds (List.mem_cons_of_mem _ hMem)
    rw [hFirst.now, hFirst.stamp] at hTail
    exact hFirst.trans hTail

/-- What is done leaves the blobs that the ledger has after its entry. -/
theorem leaves_enter {deed : Deed} (hDeed : s.Happens d (deed.turns (s.found? d)) d')
    (h : l.Describes s.className d) (hHealthy : Healthy s.className d)
    (hAccepted : ∀ t ∈ deed.turns (s.found? d), t.Accepted s d)
    (hWindow : ∀ t ∈ deed.turns (s.found? d), t.reads = true → s.window.numeric?.isSome) :
    (l.enter ⟨some s, d.now, d.stamp, deed⟩).Leaves s.className d d' := by
  have hTurns : deed.turns (s.found? d) = deed.turns (l.found? s d.now) := by
    cases deed with
    | update id change =>
      have hApart : id ≠ ".list" := (hAccepted (.look id (s.found? d id).isSome) List.mem_cons_self).2
      rw [Deed.turns, Deed.turns, h.found?_eq hApart]
    | _ => rfl
  have hTime (seconds : Float) : .elapse seconds ∉ deed.turns (s.found? d) := by
    cases deed <;> simp [Deed.turns]
  rw [hTurns] at hDeed hAccepted hWindow hTime
  exact leaves_of_happens hDeed h hHealthy hAccepted hWindow hTime

/-! ### Reading -/

namespace Describes

theorem gets_iff (h : l.Describes s.className d) (hHealthy : Healthy s.className d)
    (hWindow : s.window.numeric?.isSome) (hBears : d.Bears s.className id) (hApart : id ≠ ".list") :
    (∃ d', Runs (s.get (.string id)) d (.ok r) d') ↔ l.found? s d.now id = some r := by
  have hGet := runs_get hWindow hBears (hHealthy.obeys .read _)
  rw [← h.found?_eq hApart, found?_eq_some_iff]
  constructor
  · rintro ⟨d', hRun⟩
    exact (hGet.unique hRun).1
  · intro hFound
    rw [hFound] at hGet
    exact ⟨_, hGet⟩

/-- A store loads the records that are listed, when neither the index nor any of them is too old for it. -/
theorem loads_iff (h : l.Describes s.className d) (hHealthy : Healthy s.className d)
    (hWindow : s.window.numeric?.isSome) :
    (∃ d', Runs s.loadAll d (.ok records) d') ↔
      ∃ ids, l.listed? s d.now = some ids ∧ ids.map (l.found? s d.now) = records.map some := by
  have hApart {ids : List String} (hListed : l.listed? s d.now = some ids) : ∀ id ∈ ids,
      d.Bears s.className id ∧ id ≠ ".list" := by
    obtain ⟨k, hIndex, rfl, -⟩ := value_of_listed? hListed
    exact h.bears k hIndex
  have hIdsIn (ids : List String) : s.idsIn d = .ok ids ↔ l.listed? s d.now = some ids := by
    rw [← h.listed?_eq]
    exact Except.toOption_eq_some_iff.symm
  obtain ⟨n, hLoad⟩ := runs_loadAll hWindow hHealthy.index
    (fun ids hIds id hMem => (hApart ((hIdsIn ids).mp hIds) id hMem).1) (hHealthy.obeys .read)
  have hLoads : (∃ d', Runs s.loadAll d (.ok records) d') ↔ s.allIn d = .ok records := by
    constructor
    · rintro ⟨d', hRun⟩
      exact (hLoad.unique hRun).1
    · intro hAll
      rw [hAll] at hLoad
      exact ⟨_, hLoad⟩
  rw [hLoads, allIn, Except.bind_eq_ok]
  refine exists_congr fun ids => ?_
  rw [hIdsIn]
  refine and_congr_right fun hListed => ?_
  have hFound : ids.map (l.found? s d.now) = ids.map (s.found? d) :=
    List.map_congr_left fun id hMem => (h.found?_eq (hApart hListed id hMem).2).symm
  rw [hFound, Except.mapM_eq_ok, ← List.forall₂_eq_eq_eq, List.forall₂_map_left_iff, List.forall₂_map_right_iff]
  simp only [found?_eq_some_iff]

end Describes

end Ledger

end RecordCache.LocalStore
