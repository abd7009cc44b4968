import RecordCache.Proofs.Client.Updates
import RecordCache.Proofs.Operation.Body

/-!
# What a write touches

A write comes to nothing when the server refuses it. Once the server has taken it, the blob of its object changes and,
when an object comes or goes, the index: no other blob is written, of whatever class, and none gets another time. A
record is kept under the id that it carries itself, so this is the blob that an update writes.
-/

namespace RecordCache

namespace Disk

variable {d d₁ d' : Disk} {space key : String} {keys : List String}

/-- Every blob is as it was and has the time that it had, but for those under these names. -/
structure ChangesOnly (d d' : Disk) (space : String) (keys : List String) : Prop where
  kind : d'.kind = d.kind
  others : ∀ spot, (∀ key ∈ keys, spot ≠ d.spotOf space key) → d'.blobs.get? spot = d.blobs.get? spot

namespace ChangesOnly

theorem trans (h : ChangesOnly d d₁ space keys) (h' : ChangesOnly d₁ d' space keys) : ChangesOnly d d' space keys where
  kind := h'.kind.trans h.kind
  others spot hSpot := by
    have hSame (key : String) : d₁.spotOf space key = d.spotOf space key := by rw [spotOf, spotOf, h.kind]
    exact (h'.others spot fun key hKey => hSame key ▸ hSpot key hKey).trans (h.others spot hSpot)

theorem mono {more : List String} (h : ChangesOnly d d' space keys) (hKeys : keys ⊆ more) :
    ChangesOnly d d' space more :=
  ⟨h.kind, fun spot hSpot => h.others spot fun key hKey => hSpot key (hKeys hKey)⟩

theorem counted (d : Disk) (space : String) (keys : List String) : ChangesOnly d d.counted space keys :=
  ⟨rfl, fun _ _ => rfl⟩

theorem written (d : Disk) (space : String) (content : Blob) (hKey : key ∈ keys) :
    ChangesOnly d (d.written space key content) space keys :=
  ⟨rfl, fun spot hSpot => by rw [Disk.written, Assoc.get?_set, if_neg fun hSame => hSpot key hKey hSame.symm]⟩

theorem removed (d : Disk) (space : String) (hKey : key ∈ keys) : ChangesOnly d (d.removed space key) space keys :=
  ⟨rfl, fun spot hSpot => by rw [Disk.removed, Assoc.get?_erase, if_neg fun hSame => hSpot key hKey hSame.symm]⟩

theorem blob_eq (h : ChangesOnly d d' space keys) (hKey : key ∉ keys) : d'.blob space key = d.blob space key := by
  rw [blob, blob, spotOf, h.kind]
  exact h.others _ fun other hOther hSame => hKey (spotOf_injective hSame ▸ hOther)

end ChangesOnly

/-- What is kept under a name, whatever its time. -/
def content? (d : Disk) (space key : String) : Option Blob := (d.blob space key).map Stored.content

theorem content?_written (d : Disk) (space key : String) (content : Blob) :
    (d.written space key content).content? space key = some content := by
  rw [content?, blob_written, if_pos rfl]
  rfl

end Disk

namespace LocalStore

variable {s : LocalStore} {d : Disk} {id : String} {r : Record}

/-- A record has come: its blob holds it, and an index that can be served lists its id, at the end if it is new. -/
structure Brings (s : LocalStore) (id : String) (r : Record) (d d' : Disk) : Prop where
  changes : d.ChangesOnly d' s.className [id, ".list"]
  record : d'.content? s.className id = some (.document r.json)
  listed : ∀ ids, s.listed? d = some ids →
    d'.content? s.className ".list" = some (.document (index (if id ∈ ids then ids else ids ++ [id])))
  unlisted : s.listed? d = none → d'.blob s.className ".list" = d.blob s.className ".list"

/-- A record has changed in place, and no index. -/
structure Alters (s : LocalStore) (id : String) (r : Record) (d d' : Disk) : Prop where
  changes : d.ChangesOnly d' s.className [id]
  record : d'.content? s.className id = some (.document r.json)
  index : d'.blob s.className ".list" = d.blob s.className ".list"

/-- A record has gone: its blob is none, and an index that can be served and listed its id lists the other ones. -/
structure Drops (s : LocalStore) (id : String) (d d' : Disk) : Prop where
  changes : d.ChangesOnly d' s.className [id, ".list"]
  record : d'.blob s.className id = none
  listed : ∀ ids, s.listed? d = some ids → id ∈ ids →
    d'.content? s.className ".list" = some (.document (index (ids.filter fun other => other ≠ id)))
  unlisted : (∀ ids, s.listed? d = some ids → id ∉ ids) → d'.blob s.className ".list" = d.blob s.className ".list"

theorem changesOnly_enlisted (s : LocalStore) (d : Disk) (id : String) :
    d.ChangesOnly (s.enlisted d id) s.className [".list"] := by
  have hCounted := Disk.ChangesOnly.counted d s.className [".list"]
  rw [enlisted]
  split
  · exact hCounted.trans (.written _ _ _ List.mem_cons_self)
  · exact hCounted

theorem brings_enlisted (s : LocalStore) (d : Disk) (r : Record) (hApart : id ≠ ".list") :
    s.Brings id r d (s.enlisted (d.written s.className id (.document r.json)) id) := by
  have hListed : s.listed? (d.written s.className id (.document r.json)) = s.listed? d :=
    Stays.listed?_eq (.of_now rfl <| (Disk.blob_written ..).trans (if_neg hApart))
  have hEnlisted := changesOnly_enlisted s (d.written s.className id (.document r.json)) id
  refine ⟨?_, ?_, fun ids hIds => ?_, fun hNone => ?_⟩
  · exact .trans (.written _ _ _ List.mem_cons_self) (hEnlisted.mono (List.subset_cons_self ..))
  · rw [Disk.content?, hEnlisted.blob_eq (by simpa using hApart)]
    exact Disk.content?_written ..
  · rw [enlisted, hListed, hIds]
    exact Disk.content?_written ..
  · rw [enlisted, hListed, hNone]
    exact (Disk.blob_written ..).trans (if_neg hApart)

theorem alters_written (s : LocalStore) (d : Disk) (r : Record) (hApart : id ≠ ".list") :
    s.Alters id r d (d.counted.written s.className id (.document r.json)) where
  changes := .trans (.counted ..) (.written _ _ _ List.mem_cons_self)
  record := Disk.content?_written ..
  index := (Disk.blob_written ..).trans (if_neg hApart)

theorem drops_forgotten (s : LocalStore) (d : Disk) (hApart : id ≠ ".list")
    (hNodup : ∀ ids, s.listed? d = some ids → ids.Nodup) : s.Drops id d (s.forgotten d id) := by
  have hGone : d.ChangesOnly (d.removed s.className id).counted s.className [id, ".list"] :=
    .trans (.removed _ _ List.mem_cons_self) (.counted ..)
  have hNone : (d.removed s.className id).counted.blob s.className id = none := (Disk.blob_removed ..).trans (if_pos rfl)
  have hIndex : (d.removed s.className id).counted.blob s.className ".list" = d.blob s.className ".list" :=
    (Disk.blob_removed ..).trans (if_neg hApart)
  by_cases hLists : ∃ ids, s.listed? d = some ids ∧ id ∈ ids
  · obtain ⟨ids, hIds, hMem⟩ := hLists
    rw [forgotten, hIds]
    simp only [hMem, if_true]
    refine ⟨hGone.trans (.written _ _ _ (by simp)), ?_, fun ids' hIds' _ => ?_,
      fun hNot => absurd hMem (hNot ids hIds)⟩
    · exact ((Disk.blob_written ..).trans (if_neg (Ne.symm hApart))).trans hNone
    · cases hIds.symm.trans hIds'
      have hErase : ids.erase id = ids.filter fun other => other ≠ id := by
        rw [(hNodup ids hIds).erase_eq_filter]
        exact List.filter_congr fun other _ => Bool.eq_iff_iff.mpr (by simp)
      rw [← hErase]
      exact Disk.content?_written ..
  · have hLeft : s.forgotten d id = (d.removed s.className id).counted := by
      rw [forgotten]
      split
      · next ids hIds => exact if_neg fun hMem => hLists ⟨ids, hIds, hMem⟩
      · rfl
    rw [hLeft]
    exact ⟨hGone, hNone, fun ids hIds hMem => absurd ⟨ids, hIds, hMem⟩ hLists, fun _ => hIndex⟩

end LocalStore

namespace Batch

variable {b : Batch} {answer : Json} {r r' : Record}

theorem objectId?_changed (h : b.changed answer r = .ok r') (hApart : ∀ o ∈ b.operations, o.key ≠ "objectId") :
    r'.objectId? = r.objectId? := by
  obtain ⟨raw, hRaw, h⟩ := Except.bind_eq_ok.mp h
  obtain ⟨time, -, h⟩ := Except.bind_eq_ok.mp h
  cases h
  have hName : Scalar.string "updatedAt" ≠ .string "objectId" := by decide
  have hTime : Assoc.get? (Record.merged { raw } (time.toList.map fun t => ("updatedAt", t))).raw "objectId" =
      Assoc.get? raw "objectId" := by
    cases time with
    | none => rfl
    | some t => exact (Assoc.get?_set ..).trans (if_neg hName)
  rw [Record.objectId?, Record.objectId?, Record.scalar, Record.scalar, Record.rawField, Record.rawField, Record.get?,
    Record.get?, hTime, get?_apply_of_apart hRaw hApart]

end Batch

namespace Session

open LocalStore (Healthy)

variable {κ α : Type} {s t u : Session κ α} {b : Batch} {store : LocalStore} {id : String} {r : Record} {answer : Json}

/-! ### Requests that are refused -/

/-- A batch that the server refuses is still one on a new object. -/
theorem stops_saveBatch {held : Batch} {result : Except Error Record}
    (hRefused : ∀ call, Sends b "POST" (Schema.path b.className .null) call → s.Refuses call)
    (hRun : Runs saveBatch (b, s) result (held, t)) :
    (∃ e, result = .error e) ∧ held = b ∧ s.OnlyAsked t := by
  obtain ⟨sent, u, hSent⟩ := Runs.exists_run (sendNew b) s
  obtain ⟨⟨e, rfl⟩, hLeft⟩ := Stops.sendNew b _ _ _ hRefused hSent
  obtain ⟨rfl, hSame⟩ := hRun.unique (.bind (.state _) (runs_onSession b hSent).bind_fail)
  cases hSame
  exact ⟨⟨e, rfl⟩, rfl, hLeft⟩

/-! ### Requests that are taken -/

theorem runs_saveBatch (hSent : Runs (sendNew b) s (.ok r) u) (hKept : Runs (keepNew b.className r) u (.ok ()) t) :
    Runs saveBatch (b, s) (.ok r) ({ b with objectId := LocalStore.idJson r }, t) :=
  .bind (.state _) (.bind (runs_onSession b hSent) (.bind (.alter _ _) (.bind (runs_onSession _ hKept) (.ret _ _))))

theorem runs_delete {v : Session κ α} {ref : StoreRef} {d' : Disk} (hId : b.objectId = .string id)
    (hSent : Runs (request "DELETE" (Schema.path b.className b.objectId) none) s (.ok answer) u)
    (hOwn : Runs (ownStore b.className) u (.ok (some ref)) v)
    (hRemove : Runs (ref.store.remove (.string id)) v.disk (.ok ()) d') :
    Runs (delete b) s (.ok ()) { v with disk := d', relations := v.relations.forget (refOf b (.string id)) } := by
  rw [delete, existing_eq hId]
  rw [hId] at hSent
  refine .bind (runs_ofExcept _ _) (.bind (hSent.map _) (.bind hOwn ?_))
  exact .bind (runs_serve hRemove) (.alter _ _)

section Taken

variable (hRegistry : s.registry.Consistent) (hStore : s.classStore b.className = some store)
  (hHealthy : Healthy b.className s.disk)

include hRegistry hStore hHealthy

theorem brings_saveBatch (hSent : Runs (sendNew b) s (.ok r) u) (hId : r.objectId? = some id)
    (hWritable : r.json.isWritable = true) (hBears : s.disk.Bears b.className id) (hApart : id ≠ ".list") :
    ∃ t, Runs saveBatch (b, s) (.ok r) ({ b with objectId := .string id }, t) ∧ store.Brings id r s.disk t.disk := by
  obtain ⟨hDisk, hSame⟩ := Aside.sendNew b _ _ _ hSent
  obtain ⟨-, -, -, hClass, -⟩ := exists_ownStore hRegistry hStore
  have hOwn : u.classStore b.className = some store := by rw [← hStore, classStore, classStore, hSame]
  obtain ⟨t, hKept, hLeft⟩ :=
    runs_keepNew (hSame ▸ hRegistry) hOwn (hDisk ▸ hHealthy) hId hWritable (hDisk ▸ hBears)
  have hRun := runs_saveBatch hSent hKept
  rw [LocalStore.idJson_eq hId] at hRun
  rw [hDisk, ← hClass] at hLeft
  exact ⟨t, hRun, hLeft ▸ store.brings_enlisted s.disk r hApart⟩

/-- What an update finds in the cache, it keeps as it has changed it. -/
theorem alters_update (hId : b.objectId = .string id) (hBears : s.disk.Bears b.className id)
    (hAnswers : s.Answers b answer) :
    (store.found? s.disk id = none → ∃ t, Runs (update b) s (.ok none) t ∧ t.disk.blobs = s.disk.blobs) ∧
      ∀ cached r own, store.found? s.disk id = some cached → b.changed answer cached = .ok r →
        r.json.isWritable = true → r.objectId? = some own → s.disk.Bears b.className own → own ≠ ".list" →
        ∃ t, Runs (update b) s (.ok (some r)) t ∧ store.Alters own r s.disk t.disk := by
  obtain ⟨body, u, hBody, hPut⟩ := hAnswers
  obtain ⟨hDisk, hSame⟩ := Aside.send _ _ _ _ hPut
  obtain ⟨ref, hRef, rfl, hClass, hWindow⟩ := exists_ownStore hRegistry hStore
  have hOwnStore := runs_store b.className .null u
  rw [hSame, hRef] at hOwnStore
  rw [← hClass] at hHealthy hBears ⊢
  have hLook := LocalStore.runs_look hWindow hHealthy hBears
  constructor
  · intro hFound
    rw [hFound, ← hDisk] at hLook
    have hCached : Runs (updateCached b (.string id) answer) u (.ok none) _ :=
      .bind hOwnStore (.bind (runs_serve hLook) (.ret none _))
    refine ⟨_, runs_update hId hBody hPut hCached, ?_⟩
    change u.disk.blobs = s.disk.blobs
    rw [hDisk]
  · intro cached r own hFound hChanged hWritable hOwn hOwnBears hOwnApart
    rw [hFound, ← hDisk] at hLook
    have hKeep := LocalStore.runs_keep hHealthy.counted hOwn hWritable hOwnBears.counted
    rw [← hDisk] at hKeep
    refine ⟨_, runs_update hId hBody hPut (runs_updateCached_found hOwnStore hLook hChanged hKeep), ?_⟩
    change ref.store.Alters own r s.disk (u.disk.counted.written ref.store.className own (.document r.json))
    rw [hDisk]
    exact ref.store.alters_written s.disk r hOwnApart

theorem drops_delete (hId : b.objectId = .string id) (hBears : s.disk.Bears b.className id) (hApart : id ≠ ".list")
    (hNodup : ∀ ids, store.listed? s.disk = some ids → ids.Nodup)
    (hSent : Runs (request "DELETE" (Schema.path b.className b.objectId) none) s (.ok answer) u) :
    ∃ t, Runs (delete b) s (.ok ()) t ∧ store.Drops id s.disk t.disk := by
  obtain ⟨hDisk, hSame⟩ := Aside.send _ _ _ _ hSent
  obtain ⟨ref, hRef, rfl, hClass, hWindow⟩ := exists_ownStore hRegistry hStore
  have hOwnStore := runs_store b.className .null u
  rw [hSame, hRef] at hOwnStore
  rw [← hClass] at hHealthy hBears
  have hRemove := LocalStore.runs_remove hWindow hHealthy hBears hApart
  rw [← hDisk] at hRemove
  refine ⟨_, runs_delete hId hSent hOwnStore hRemove, ?_⟩
  change ref.store.Drops id s.disk (ref.store.forgotten u.disk id)
  rw [hDisk]
  exact ref.store.drops_forgotten s.disk hApart hNodup

end Taken

/-- A write of an object of a cached class, on a disk that refuses nothing. When the server refuses the request, nothing
has changed. When it takes the request, only the blob of the object and the index of its class may change, the index
only where it can be served and the object comes or goes; an update changes a cached record only where it can be served,
and keeps it under the id that this record carries. -/
theorem write_touches (hRegistry : s.registry.Consistent) (hStore : s.classStore b.className = some store)
    (hHealthy : Healthy b.className s.disk)
    (hNodup : ∀ ids, store.listed? s.disk = some ids → ids.Nodup) :
    (((∀ call, Sends b "POST" (Schema.path b.className .null) call → s.Refuses call) →
        ∀ result held t, Runs saveBatch (b, s) result (held, t) →
          (∃ e, result = .error e) ∧ held = b ∧ s.OnlyAsked t) ∧
      ((∀ call, Sends b "PUT" (Schema.path b.className b.objectId) call → s.Refuses call) →
        ∀ result t, Runs (update b) s result t → (∃ e, result = .error e) ∧ s.OnlyAsked t) ∧
      (s.Refuses (.request "DELETE" (Schema.path b.className b.objectId) none) →
        ∀ result t, Runs (delete b) s result t → (∃ e, result = .error e) ∧ s.OnlyAsked t)) ∧
    (∀ r id u, Runs (sendNew b) s (.ok r) u → r.objectId? = some id → r.json.isWritable = true →
      s.disk.Bears b.className id → id ≠ ".list" →
      ∃ t, Runs saveBatch (b, s) (.ok r) ({ b with objectId := .string id }, t) ∧ store.Brings id r s.disk t.disk) ∧
    ∀ id, b.objectId = .string id → s.disk.Bears b.className id → id ≠ ".list" →
      (∀ answer, s.Answers b answer → (∀ o ∈ b.operations, o.key ≠ "objectId") →
        (store.found? s.disk id = none → ∃ t, Runs (update b) s (.ok none) t ∧ t.disk.blobs = s.disk.blobs) ∧
        ∀ cached r own, store.found? s.disk id = some cached → b.changed answer cached = .ok r →
          r.json.isWritable = true → cached.objectId? = some own → s.disk.Bears b.className own → own ≠ ".list" →
          ∃ t, Runs (update b) s (.ok (some r)) t ∧ store.Alters own r s.disk t.disk) ∧
      ∀ answer u, Runs (request "DELETE" (Schema.path b.className b.objectId) none) s (.ok answer) u →
        ∃ t, Runs (delete b) s (.ok ()) t ∧ store.Drops id s.disk t.disk := by
  refine ⟨⟨fun hRefused _ _ _ => stops_saveBatch hRefused, fun hRefused _ _ => Stops.update b _ _ _ hRefused,
    fun hRefused _ _ => Stops.delete b _ _ _ fun _ hCall => hCall ▸ hRefused⟩, ?_, ?_⟩
  · exact fun r id u hSent hId hWritable hBears hApart =>
      brings_saveBatch hRegistry hStore hHealthy hSent hId hWritable hBears hApart
  · intro id hId hBears hApart
    refine ⟨fun answer hAnswers hOthers => ?_, fun answer u hSent =>
      drops_delete hRegistry hStore hHealthy hId hBears hApart hNodup hSent⟩
    obtain ⟨hMissing, hFound⟩ := alters_update hRegistry hStore hHealthy hId hBears hAnswers
    exact ⟨hMissing, fun cached r own hCached hChanged hWritable hOwn =>
      hFound cached r own hCached hChanged hWritable ((Batch.objectId?_changed hChanged hOthers).trans hOwn)⟩

/-! ### Two notes -/

def noteFields (id : String) (stars : Int) : Fields Json := [("objectId", .string id), ("stars", .int stars)]

/-- A note under the name `a` that carries this id, and an index of two notes. -/
def filed (own : String) : Session Unit Unit where
  disk := {
    blobs := [(⟨"Note", .string "a"⟩, ⟨.document (.object (noteFields own 1)), 1000.0⟩),
      (⟨"Note", .string ".list"⟩, ⟨.document (LocalStore.index ["a", "c"]), 1000.0⟩)] }
  registry := { windows := [("Note", .int 60)] }
  server := [fun _ => .ok (.object [("objectId", .string "b"), ("createdAt", .string "2015-01-01T00:00:00.000Z")])]
  app := ()

def newNote : Batch := { className := "Note" }

def moreStars : Batch where
  className := "Note"
  objectId := .string "a"
  operations := [.set "stars" (.scalar (.number (.int 2)))]

def keptNotes : LocalStore := ⟨"Note", .int 60⟩

theorem bears_filed (own id : String) : (filed own).disk.Bears "Note" id := Disk.bears_of_kind (by simp [filed]) _ _

theorem consistent_filed (own : String) : (filed own).registry.Consistent where
  numbers name window hWindow := by
    obtain ⟨-, rfl⟩ := Prod.mk.inj (List.mem_singleton.mp (Assoc.mem_of_get? hWindow))
    rfl
  kept _ _ h := nomatch h

theorem classStore_filed (own : String) : (filed own).classStore "Note" = some keptNotes := rfl

theorem healthy_filed (own : String) : Healthy "Note" (filed own).disk := ⟨fun _ _ => rfl, rfl, bears_filed own _⟩

theorem fresh_filed : keptNotes.outlived (1000.0 - 1000.0) = false := by decide +kernel

theorem listed?_filed (own : String) : keptNotes.listed? (filed own).disk = some ["a", "c"] := by
  have hFresh : keptNotes.outlived ((filed own).disk.now - 1000.0) = false := fresh_filed
  have hIndex : keptNotes.idsIn (filed own).disk = _ := LocalStore.idsIn_of_index rfl
  rw [LocalStore.listed?, hIndex, hFresh]
  rfl

theorem found?_filed (own : String) : keptNotes.found? (filed own).disk "a" = some (.ofFields (noteFields own 1)) := by
  have hDocument : (Json.object (noteFields own 1)).isDocument = true := by
    rw [Json.isDocument_object]
    simp only [noteFields, List.forall_mem_cons, Json.isDocument, true_and]
    exact ⟨by simp [Assoc.keys], by decide, List.forall_mem_nil _⟩
  refine LocalStore.found?_of_record ⟨_, hDocument, rfl⟩ ?_ fresh_filed
  rw [Record.json_ofFields]
  rfl

theorem answers_filed (own : String) : (filed own).Answers moreStars (.object [("objectId", .string "b"),
    ("createdAt", .string "2015-01-01T00:00:00.000Z")]) := ⟨_, _, rfl, rfl⟩

/-- A new note is listed behind the other ones, more stars are no matter of the index, and a deleted note leaves it. -/
theorem write_touches_filed :
    (∃ r t, Runs saveBatch (newNote, filed "a") (.ok r) ({ newNote with objectId := .string "b" }, t) ∧
      t.disk.content? "Note" "b" = some (.document r.json) ∧
      t.disk.content? "Note" ".list" = some (.document (LocalStore.index ["a", "c", "b"])) ∧
      t.disk.blob "Note" "a" = (filed "a").disk.blob "Note" "a") ∧
    (∃ r t, Runs (update moreStars) (filed "a") (.ok (some r)) t ∧
      t.disk.content? "Note" "a" = some (.document (.object (noteFields "a" 2))) ∧
      t.disk.blob "Note" ".list" = (filed "a").disk.blob "Note" ".list") ∧
    ∃ t, Runs (delete moreStars) (filed "a") (.ok ()) t ∧ t.disk.blob "Note" "a" = none ∧
      t.disk.content? "Note" ".list" = some (.document (LocalStore.index ["c"])) := by
  have hNodup : ∀ ids, keptNotes.listed? (filed "a").disk = some ids → ids.Nodup := by
    rw [listed?_filed]
    rintro _ ⟨⟩
    decide
  obtain ⟨-, hSave, -⟩ :=
    write_touches (b := newNote) (consistent_filed "a") (classStore_filed "a") (healthy_filed "a") hNodup
  obtain ⟨-, -, hChange⟩ :=
    write_touches (b := moreStars) (consistent_filed "a") (classStore_filed "a") (healthy_filed "a") hNodup
  obtain ⟨hUpdate, hDelete⟩ := hChange "a" rfl (bears_filed _ _) (by decide)
  refine ⟨?_, ?_, ?_⟩
  · obtain ⟨t, hRun, hBrings⟩ := hSave _ "b" _ rfl rfl (by decide) (bears_filed _ _) (by decide)
    exact ⟨_, t, hRun, hBrings.record, hBrings.listed _ (listed?_filed _), hBrings.changes.blob_eq (by decide)⟩
  · obtain ⟨-, hFound⟩ := hUpdate _ (answers_filed "a") (by decide)
    obtain ⟨t, hRun, hAlters⟩ := hFound _ _ "a" (found?_filed _) rfl (by decide) rfl (bears_filed _ _) (by decide)
    exact ⟨_, t, hRun, hAlters.record, hAlters.index⟩
  · obtain ⟨t, hRun, hDrops⟩ := hDelete _ _ rfl
    exact ⟨t, hRun, hDrops.record, hDrops.listed _ (listed?_filed _) (by decide)⟩

/-- The record under `a` carries the id `b`, and so the changed record is kept as `b`. -/
theorem not_touches_misfiled :
    Healthy "Note" (filed "b").disk ∧
      keptNotes.found? (filed "b").disk "a" = some (.ofFields (noteFields "b" 1)) ∧
      ∃ r t, Runs (update moreStars) (filed "b") (.ok (some r)) t ∧
        (filed "b").disk.content? "Note" "b" = none ∧ t.disk.content? "Note" "b" = some (.document r.json) ∧
        t.disk.blob "Note" "a" = (filed "b").disk.blob "Note" "a" := by
  obtain ⟨-, hFound⟩ := alters_update (b := moreStars) (consistent_filed "b") (classStore_filed "b") (healthy_filed "b")
    rfl (bears_filed _ _) (answers_filed "b")
  obtain ⟨t, hRun, hAlters⟩ := hFound _ _ "b" (found?_filed _) rfl (by decide) rfl (bears_filed _ _) (by decide)
  exact ⟨healthy_filed "b", found?_filed "b", _, t, hRun, rfl, hAlters.record, hAlters.changes.blob_eq (by decide)⟩

end Session

end RecordCache
