import Mathlib.Data.List.Forall2
import Mathlib.Logic.Relation
import RecordCache.Proofs.LocalStore.Snapshot

/-!
# What the blobs of a class are

The stores of a class, whatever their windows, keep its blobs tidy: the index lists distinct ids, and any other
blob is an object with its key as its id. That holds after every single access, so it does not matter which
accesses fail or where an operation is cut short. `Keeps` is a rule for each way of building work, one for each
access, and then one for each operation.
-/

namespace RecordCache

namespace Record

/-- The fields of a document, under an id. What is staged is not kept. -/
def KeptAs (r : Record) (id : String) : Prop :=
  ∃ fields, (Json.object fields).isDocument = true ∧ r.raw = Keyed.ofFields fields ∧ r.objectId? = some id

theorem get?_ofFields (fields : Fields Json) (key : String) :
    Assoc.get? (Keyed.ofFields fields) (.string key) = Assoc.get? fields key := by
  induction fields with
  | nil => rfl
  | cons entry rest ih =>
    rw [Assoc.get?_cons, ← ih]
    change Assoc.get? ((.string entry.1, entry.2) :: Keyed.ofFields rest) _ = _
    rw [Assoc.get?_cons]
    simp

theorem objectId?_ofFields {fields : Fields Json} {id : String}
    (h : Assoc.get? fields "objectId" = some (.string id)) : (ofFields fields).objectId? = some id := by
  rw [objectId?, scalar, rawField, get?, ofFields, get?_ofFields, h]
  rfl

theorem get?_objectId {r : Record} {fields : Fields Json} {id : String}
    (hFields : (Json.object fields).isDocument = true) (hRaw : r.raw = Keyed.ofFields fields)
    (h : r.objectId? = some id) : Assoc.get? fields "objectId" = some (.string id) := by
  rw [objectId?, scalar, rawField, get?, hRaw, get?_ofFields] at h
  cases hField : Assoc.get? fields "objectId" with
  | none =>
    rw [hField] at h
    cases h
  | some j =>
    have hDocument := ((Json.isDocument_object fields).mp hFields).2 _ (Assoc.mem_of_get? hField)
    rw [hField] at h
    cases j with
    | string s =>
      cases h
      rfl
    | other thing parts => cases hDocument
    | _ => cases h

end Record

namespace LocalStore

variable {α β : Type} {s : LocalStore} {className key id : String} {named : String → Prop} {d d' : Disk}

/-- An id that is no name of the index, and for which there is a place. -/
def Names (named : String → Prop) (id : String) : Prop := named id ∧ id ≠ ".list"

/-- What may lie under a key. -/
def Fits (named : String → Prop) (key : String) (content : Blob) : Prop :=
  if key = ".list" then
    ∃ ids : List String, content.json? = some (index ids) ∧ ids.Nodup ∧ ∀ id ∈ ids, Names named id
  else
    ∃ fields, content.json? = some (.object fields) ∧ Assoc.get? fields "objectId" = some (.string key)

/-- The blobs of a class, on a disk that bears some names. -/
structure Tidy (className : String) (named : String → Prop) (d : Disk) : Prop where
  bears : ∀ key, named key → d.Bears className key
  fits : ∀ (key : String) (stored : Stored), d.blob className key = some stored → Fits named key stored.content

/-- Whatever the work comes to, the blobs stay tidy, and a result is as it should be. -/
def Keeps (s : LocalStore) (named : String → Prop) (work : Serving α) (good : α → Prop) : Prop :=
  ∀ d r d', Tidy s.className named d → Runs work d r d' →
    Tidy s.className named d' ∧ ∀ a, r = .ok a → good a

/-! ### Building work -/

namespace Keeps

variable {good : α → Prop} {good' : β → Prop}

theorem ret {a : α} (h : good a) : s.Keeps named (pure a) good := by
  intro d r d' hTidy hRun
  obtain ⟨rfl, rfl⟩ := hRun.unique (.ret a d)
  refine ⟨hTidy, fun b hb => ?_⟩
  cases hb
  exact h

theorem bind {work : Serving α} {next : α → Serving β} (h : s.Keeps named work good)
    (hNext : ∀ a, good a → s.Keeps named (next a) good') : s.Keeps named (work >>= next) good' := by
  intro d r d' hTidy hRun
  obtain ⟨a, d₁, hFirst, hRest⟩ | ⟨e, rfl, hFirst⟩ := Runs.bind_iff.mp hRun
  · obtain ⟨hTidy₁, hGood⟩ := h d _ d₁ hTidy hFirst
    exact hNext a (hGood a rfl) d₁ r d' hTidy₁ hRest
  · exact ⟨(h d _ d' hTidy hFirst).1, fun b hb => (nomatch hb)⟩

/-- Work that is given up when it fails in the cache. -/
theorem whenServed {work : Serving α} (h : s.Keeps named work good) :
    s.Keeps named (LocalStore.whenServed work) fun found => ∀ a, found = some a → good a := by
  intro d r d' hTidy hRun
  obtain ⟨r₁, d₁, hWork⟩ := Runs.exists_run work d
  obtain ⟨rfl, rfl⟩ := hRun.unique (runs_whenServed hWork)
  obtain ⟨hTidy', hGood⟩ := h d r₁ _ hTidy hWork
  refine ⟨hTidy', fun found hFound a ha => ?_⟩
  subst ha
  cases r₁ with
  | ok value =>
    cases hFound
    exact hGood _ rfl
  | error e =>
    rw [served] at hFound
    split at hFound <;> cases hFound

theorem discard {work : Serving α} (h : s.Keeps named work good) :
    s.Keeps named (Functor.discard work) fun _ => True := by
  intro d r d' hTidy hRun
  obtain ⟨r₁, d₁, hWork⟩ := Runs.exists_run work d
  obtain ⟨-, rfl⟩ := hRun.unique (hWork.map _)
  exact ⟨(h d r₁ _ hTidy hWork).1, fun _ _ => trivial⟩

theorem forM {f : β → Serving PUnit} {xs : List β} (h : ∀ x ∈ xs, s.Keeps named (f x) fun _ => True) :
    s.Keeps named (xs.forM f) fun _ => True := by
  induction xs with
  | nil => exact ret trivial
  | cons x rest ih =>
    rw [List.forM]
    exact (h x List.mem_cons_self).bind fun _ _ => ih fun y hy => h y (List.mem_cons_of_mem _ hy)

end Keeps

/-! ### Single accesses -/

theorem Tidy.of_same (h : Tidy className named d) (hKind : d'.kind = d.kind) (hBlobs : d'.blobs = d.blobs)
    (hFolders : d'.folders = d.folders) : Tidy className named d' where
  bears key hKey := (h.bears key hKey).of_same hKind hBlobs hFolders
  fits key stored hStored := by
    refine h.fits key stored ?_
    rw [← hStored, Disk.blob, Disk.blob, Disk.spotOf, Disk.spotOf, hKind, hBlobs]

theorem Tidy.counted (h : Tidy className named d) : Tidy className named d.counted := h.of_same rfl rfl rfl

theorem Tidy.written (h : Tidy className named d) {content : Blob} (hFits : Fits named key content) :
    Tidy className named (d.written className key content) where
  bears other hOther := (h.bears other hOther).written content
  fits other stored hStored := by
    rw [Disk.blob_written] at hStored
    split at hStored
    · next hKey =>
      cases hStored
      rw [← hKey]
      exact hFits
    · exact h.fits other stored hStored

theorem Tidy.removed (h : Tidy className named d) (key : String) :
    Tidy className named (d.removed className key) where
  bears other hOther := (h.bears other hOther).removed key
  fits other stored hStored := by
    rw [Disk.blob_removed] at hStored
    split at hStored
    · cases hStored
    · exact h.fits other stored hStored

namespace Keeps

theorem save {j : Json} (hKey : named key) (hFits : Fits named key (.document j)) :
    s.Keeps named (s.save (.string key) j) fun _ => True := by
  intro d r d' hTidy hRun
  refine ⟨?_, fun _ _ => trivial⟩
  by_cases hWritable : j.isWritable = true
  · by_cases hRefuses : d.fails .write d.accesses = true ∨ d.room = some 0
    · obtain ⟨-, rfl⟩ := hRun.unique (runs_save_fails _ hWritable hRefuses)
      exact hTidy.counted
    · obtain ⟨hWrites, hRoom⟩ := not_or.mp hRefuses
      obtain ⟨-, rfl⟩ := hRun.unique
        (runs_save (hTidy.bears key hKey) hWritable (Bool.eq_false_iff.mpr hWrites) hRoom)
      exact hTidy.written hFits
  · rw [LocalStore.save, Bool.eq_false_iff.mpr hWritable] at hRun
    obtain ⟨-, rfl⟩ := hRun.unique (.bind_fail (.fail _ d))
    exact hTidy

theorem discardBlob (hKey : named key) : s.Keeps named (s.discardBlob (.string key)) fun _ => True := by
  have hRemove : s.Keeps named (s.access (.string key) (Disk.remove (s.place (.string key)))) fun _ => True := by
    intro d r d' hTidy hRun
    refine ⟨?_, fun _ _ => trivial⟩
    by_cases hRefuses : d.fails .remove d.accesses = true
    · obtain ⟨-, rfl⟩ := hRun.unique (runs_access _ (Disk.runs_remove_fails _ hRefuses))
      exact hTidy.counted
    · obtain ⟨-, rfl⟩ := hRun.unique
        (runs_access _ (Disk.runs_remove (hTidy.bears key hKey) (Bool.eq_false_iff.mpr hRefuses)))
      exact hTidy.removed key
  exact discard (whenServed hRemove)

end Keeps

/-! ### Reading -/

/-- The blob is there and fresh, and is no document of the kind that is asked for. -/
def isMisfit : Error → Bool
  | .cache (.wrongFormat ..) => true
  | _ => false

/-- A failure, but not over what the blob is. -/
def Misses (r : Except Error α) : Prop := ∃ e, r = .error e ∧ isMisfit e = false

theorem Misses.of {e : Error} (h : isMisfit e = false) : Misses (.error e : Except Error α) := ⟨e, rfl, h⟩

theorem Tidy.runs_load (h : Tidy s.className named d) (hKey : named key) {read : Json → Option α}
    (hRead : ∀ content, Fits named key content → ∃ a, content.json?.bind read = some a) (expected : String) :
    ∃ r, Runs (s.load (.string key) read expected) d r d.counted ∧
      (Misses r ∨ ∃ stored a, d.blob s.className key = some stored ∧
        stored.content.json?.bind read = some a ∧ r = .ok a) := by
  rw [LocalStore.load]
  by_cases hFails : d.fails .read d.accesses = true
  · exact ⟨_, .bind_fail (runs_access _ (Disk.runs_read_fails _ hFails)), .inl (.of rfl)⟩
  have hAccess : Runs (s.access (.string key) (Disk.read (s.place (.string key)))) d _ d.counted :=
    runs_access _ (Disk.runs_read (h.bears key hKey) (Bool.eq_false_iff.mpr hFails))
  cases hBlob : d.blob s.className key with
  | none =>
    rw [hBlob] at hAccess
    exact ⟨_, hAccess.bind (.fail _ _), .inl (.of rfl)⟩
  | some stored =>
    obtain ⟨a, hValue⟩ := hRead stored.content (h.fits key stored hBlob)
    rw [hBlob] at hAccess
    have hClock : Runs (getThe Disk : Serving Disk) d.counted (.ok d.counted) d.counted := .state _
    cases hStale : s.isStale (d.counted.now - stored.mtime) with
    | error fault =>
      refine ⟨.error (.data fault), hAccess.bind (hClock.bind ?_), .inl (.of rfl)⟩
      simp only [hStale]
      exact .bind_fail (.ofExcept (.error (Error.data fault)) _)
    | ok stale =>
      cases stale with
      | true =>
        refine ⟨.error (.cache (.expired s.className (.string key) (d.counted.now - stored.mtime))),
          hAccess.bind (hClock.bind ?_), .inl (.of rfl)⟩
        simp only [hStale]
        exact .bind (.ofExcept (.ok true) _) (.bind_fail (.fail _ _))
      | false =>
        refine ⟨.ok a, hAccess.bind (hClock.bind ?_), .inr ⟨stored, a, rfl, hValue, rfl⟩⟩
        simp only [hStale, hValue]
        exact .bind (.ofExcept (.ok false) _) (.ret a _)

theorem Tidy.listIds (h : Tidy s.className named d) (hList : named ".list") {r : Except Error (List String)}
    (hRun : Runs s.listIds d r d') :
    d' = d.counted ∧ (Misses r ∨ ∃ stored ids, d.blob s.className ".list" = some stored ∧
      stored.content.json? = some (index ids) ∧ ids.Nodup ∧ (∀ id ∈ ids, Names named id) ∧ r = .ok ids) := by
  have hRead : ∀ content, Fits named ".list" content → ∃ ids : List String, content.json? = some (index ids) ∧
      ids.Nodup ∧ ∀ id ∈ ids, Names named id := by
    intro content hFits
    rwa [Fits, if_pos rfl] at hFits
  have hFinds : ∀ content, Fits named ".list" content → ∃ ids : List String,
      (content.json?.bind fun j => j.array?.bind fun items => items.mapM Json.string?) = some ids := by
    intro content hFits
    obtain ⟨ids, hJson, -⟩ := hRead content hFits
    exact ⟨ids, by rw [hJson, Option.bind_some, (strings_iff _ ids).mpr rfl]⟩
  obtain ⟨r', hLoad, hResult⟩ := h.runs_load hList hFinds "a list of ids"
  obtain ⟨rfl, rfl⟩ := hRun.unique hLoad
  refine ⟨rfl, hResult.imp_right ?_⟩
  rintro ⟨stored, found, hBlob, hFound, rfl⟩
  obtain ⟨ids, hJson, hNodup, hNames⟩ := hRead _ (h.fits _ _ hBlob)
  rw [hJson, Option.bind_some, (strings_iff _ ids).mpr rfl, Option.some.injEq] at hFound
  subst hFound
  exact ⟨stored, ids, hBlob, hJson, hNodup, hNames, rfl⟩

theorem Tidy.get (h : Tidy s.className named d) (hId : Names named id) {r : Except Error Record}
    (hRun : Runs (s.get (.string id)) d r d') :
    d' = d.counted ∧ (Misses r ∨ ∃ record, r = .ok record ∧ record.objectId? = some id) := by
  have hRead : ∀ content, Fits named id content → ∃ fields, content.json? = some (.object fields) ∧
      Assoc.get? fields "objectId" = some (.string id) := by
    intro content hFits
    rwa [Fits, if_neg hId.2] at hFits
  have hFinds : ∀ content, Fits named id content → ∃ fields, content.json?.bind Json.object? = some fields := by
    intro content hFits
    obtain ⟨fields, hJson, -⟩ := hRead content hFits
    exact ⟨fields, by rw [hJson]; rfl⟩
  obtain ⟨r', hLoad, hResult⟩ := h.runs_load hId.1 hFinds "an object"
  obtain ⟨rfl, rfl⟩ := hRun.unique (hLoad.map Record.ofFields)
  refine ⟨rfl, hResult.imp ?_ ?_⟩
  · rintro ⟨e, rfl, hOther⟩
    exact ⟨e, rfl, hOther⟩
  · rintro ⟨stored, found, hBlob, hFound, rfl⟩
    obtain ⟨fields, hJson, hField⟩ := hRead _ (h.fits _ _ hBlob)
    rw [hJson] at hFound
    cases hFound
    exact ⟨_, rfl, Record.objectId?_ofFields hField⟩

theorem Tidy.getAll {ids : List String} (h : Tidy s.className named d) (hIds : ∀ id ∈ ids, Names named id)
    {records : List Record} (hRun : Runs (ids.mapM fun id => s.get (.string id)) d (.ok records) d') :
    records.map Record.objectId? = ids.map some := by
  induction ids generalizing d d' records with
  | nil =>
    rw [List.mapM_nil] at hRun
    obtain ⟨hNil, -⟩ := hRun.unique (.ret _ d)
    cases hNil
    rfl
  | cons id rest ih =>
    rw [List.mapM_cons] at hRun
    obtain ⟨r, d₁, hGet, hRest⟩ | ⟨e, hError, -⟩ := Runs.bind_iff.mp hRun
    · obtain ⟨rs, d₂, hGets, hRet⟩ | ⟨e, hError, -⟩ := Runs.bind_iff.mp hRest
      · obtain ⟨hCons, -⟩ := hRet.unique (.ret _ d₂)
        cases hCons
        obtain ⟨rfl, hFirst⟩ := h.get (hIds id List.mem_cons_self) hGet
        obtain ⟨e, hError, -⟩ | ⟨record, hSame, hId⟩ := hFirst
        · cases hError
        · cases hSame
          rw [List.map_cons, List.map_cons, hId,
            ih h.counted (fun other hOther => hIds other (List.mem_cons_of_mem _ hOther)) hGets]
      · cases hError
    · cases hError

/-- What is loaded has just the ids that are listed. -/
theorem Tidy.loadAll (h : Tidy s.className named d) (hList : named ".list") {records : List Record}
    (hRun : Runs s.loadAll d (.ok records) d') :
    ∃ ids, Runs s.listIds d (.ok ids) d.counted ∧ ids.Nodup ∧ records.map Record.objectId? = ids.map some := by
  obtain ⟨ids, d₁, hListIds, hGets⟩ | ⟨e, hError, -⟩ := Runs.bind_iff.mp hRun
  · obtain ⟨rfl, hListed⟩ := h.listIds hList hListIds
    obtain ⟨e, hError, -⟩ | ⟨-, listed, -, -, hNodup, hNames, hSame⟩ := hListed
    · cases hError
    · cases hSame
      exact ⟨ids, hListIds, hNodup, h.counted.getAll hNames hGets⟩
  · cases hError

/-! ### Operations -/

theorem exists_foldl_addId {listed : List String} (hNodup : listed.Nodup) (ids : List String) :
    ∃ all : List String, (ids.map Json.string).foldl addId (listed.map .string) = all.map .string ∧ all.Nodup ∧
      ∀ id ∈ all, id ∈ listed ∨ id ∈ ids := by
  induction ids generalizing listed with
  | nil => exact ⟨listed, rfl, hNodup, fun id hId => .inl hId⟩
  | cons id rest ih =>
    rw [List.map_cons, List.foldl_cons, addId, Json.among_strings]
    by_cases hMem : id ∈ listed
    · rw [decide_eq_true hMem, if_pos rfl]
      obtain ⟨all, hAll, hDistinct, hFrom⟩ := ih hNodup
      exact ⟨all, hAll, hDistinct, fun other hOther => (hFrom other hOther).imp_right (List.mem_cons_of_mem _)⟩
    · have hLonger : (listed ++ [id]).Nodup := by
        rw [List.nodup_append]
        exact ⟨hNodup, by simp, by rintro a ha b hb rfl; simp_all⟩
      have hStep : listed.map Json.string ++ [.string id] = (listed ++ [id]).map .string := by simp
      rw [decide_eq_false hMem, if_neg Bool.false_ne_true, hStep]
      obtain ⟨all, hAll, hDistinct, hFrom⟩ := ih hLonger
      refine ⟨all, hAll, hDistinct, fun other hOther => ?_⟩
      rcases hFrom other hOther with hOld | hNew
      · rcases List.mem_append.mp hOld with hListed | hHere
        · exact .inl hListed
        · rw [List.mem_singleton.mp hHere]
          exact .inr List.mem_cons_self
      · exact .inr (List.mem_cons_of_mem _ hNew)

theorem fits_index {ids : List String} (hNodup : ids.Nodup) (hNames : ∀ id ∈ ids, Names named id) :
    Fits named ".list" (.document (index ids)) := by
  have hDocument : (index ids).isDocument = true := by
    rw [index, Json.isDocument_array]
    intro j hj
    obtain ⟨id, -, rfl⟩ := List.mem_map.mp hj
    rfl
  rw [Fits, if_pos rfl]
  exact ⟨ids, congrArg some (Json.readBack_eq _ hDocument), hNodup, hNames⟩

/-- A record under an id for which there is a place. -/
def Fitting (named : String → Prop) (r : Record) : Prop := ∃ id, r.KeptAs id ∧ Names named id

namespace Keeps

theorem listIds (hList : named ".list") :
    s.Keeps named s.listIds fun ids => ids.Nodup ∧ ∀ id ∈ ids, Names named id := by
  intro d r d' hTidy hRun
  obtain ⟨rfl, hResult⟩ := hTidy.listIds hList hRun
  refine ⟨hTidy.counted, fun ids hIds => ?_⟩
  subst hIds
  obtain ⟨e, hError, -⟩ | ⟨-, listed, -, -, hNodup, hNames, hSame⟩ := hResult
  · cases hError
  · cases hSame
    exact ⟨hNodup, hNames⟩

variable {ids listed : List String} (hList : named ".list")

include hList

theorem saveIndex (hNodup : ids.Nodup) (hNames : ∀ id ∈ ids, Names named id) :
    s.Keeps named (s.saveIndex (ids.map .string)) fun _ => True :=
  discard (whenServed (save hList (fits_index hNodup hNames)))

theorem extendIndex (hNodup : listed.Nodup) (hListed : ∀ id ∈ listed, Names named id)
    (hIds : ∀ id ∈ ids, Names named id) :
    s.Keeps named (s.extendIndex (listed.map .string) (index ids)) fun _ => True := by
  obtain ⟨all, hAll, hDistinct, hFrom⟩ := exists_foldl_addId hNodup ids
  intro d r d' hTidy hRun
  have hSave : Runs (s.saveIndex (all.map .string)) d r d' := by
    rw [← hAll]
    exact hRun
  exact saveIndex hList hDistinct (fun id hId => (hFrom id hId).elim (hListed id) (hIds id)) d r d' hTidy hSave

theorem resetIndex (hIds : ∀ id ∈ ids, Names named id) :
    s.Keeps named (s.resetIndex (index ids)) fun _ => True := by
  have hExtend : s.Keeps named (s.extendIndex (([] : List String).map .string) (index ids)) fun _ => True :=
    extendIndex hList .nil (by simp) hIds
  exact hExtend

theorem enlist (hIds : ∀ id ∈ ids, Names named id) :
    s.Keeps named (s.enlist (index ids)) fun _ => True := by
  rw [LocalStore.enlist]
  refine bind (whenServed (listIds hList)) fun found hFound => ?_
  cases found with
  | none => exact ret trivial
  | some listed =>
    obtain ⟨hNodup, hNames⟩ := hFound listed rfl
    exact extendIndex hList hNodup hNames hIds

theorem remove (hId : named id) : s.Keeps named (s.remove (.string id)) fun _ => True := by
  rw [LocalStore.remove]
  refine bind (discardBlob hId) fun _ _ => bind (whenServed (listIds hList)) fun found hFound => ?_
  cases found with
  | none => exact ret trivial
  | some listed =>
    obtain ⟨hNodup, hNames⟩ := hFound listed rfl
    simp only [Json.string?]
    split
    · exact saveIndex hList (hNodup.erase id) fun other hOther => hNames other (List.mem_of_mem_erase hOther)
    · exact ret trivial

omit hList in
theorem saveRecord {r : Record} (hr : Fitting named r) : s.Keeps named (s.saveRecord r) fun _ => True := by
  obtain ⟨id, ⟨fields, hFields, hRaw, hId⟩, hName, hApart⟩ := hr
  have hJson : r.json = .object fields := by rw [Record.json, hRaw, ← Record.json_ofFields]; rfl
  rw [LocalStore.saveRecord, idJson_eq hId]
  refine save hName ?_
  rw [Fits, if_neg hApart, hJson]
  exact ⟨fields, congrArg some (Json.readBack_eq _ hFields), Record.get?_objectId hFields hRaw hId⟩

theorem persist {r : Record} (hr : Fitting named r) (listed : Bool) :
    s.Keeps named (s.persist r listed) fun _ => True := by
  rw [LocalStore.persist]
  refine bind (whenServed (saveRecord hr)) fun written _ => ?_
  split
  · obtain ⟨id, ⟨-, -, -, hId⟩, hName⟩ := hr
    rw [idJson_eq hId]
    have hEnlist : s.Keeps named (s.enlist (index [id])) fun _ => True := enlist hList (by simpa using hName)
    exact hEnlist
  · exact ret trivial

omit hList in
theorem exists_ids {records : List Record} (h : ∀ r ∈ records, Fitting named r) :
    ∃ ids : List String, Json.array (records.map idJson) = index ids ∧ ∀ id ∈ ids, Names named id := by
  induction records with
  | nil => exact ⟨[], rfl, by simp⟩
  | cons r rest ih =>
    obtain ⟨id, ⟨-, -, -, hId⟩, hName⟩ := h r List.mem_cons_self
    obtain ⟨ids, hRest, hNames⟩ := ih fun other hOther => h other (List.mem_cons_of_mem _ hOther)
    refine ⟨id :: ids, ?_, List.forall_mem_cons.mpr ⟨hName, hNames⟩⟩
    rw [index, Json.array.injEq] at hRest ⊢
    rw [List.map_cons, List.map_cons, idJson_eq hId, hRest]

theorem swap {records : List Record} (h : ∀ r ∈ records, Fitting named r) :
    s.Keeps named (s.swap records) fun _ => True := by
  rw [LocalStore.swap]
  refine bind (whenServed (forM fun r hr => saveRecord (h r hr))) fun written _ => ?_
  cases written with
  | none => exact discardBlob hList
  | some _ =>
    obtain ⟨ids, hIds, hNames⟩ := exists_ids h
    rw [hIds]
    exact resetIndex hList hNames

end Keeps

end LocalStore

end RecordCache
