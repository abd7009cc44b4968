import Mathlib.Data.List.Induction
import RecordCache.Proofs.LocalStore.Blobs

/-!
# Replacing the snapshot

A snapshot is written record by record, and its index comes last. `wrote` is the disk after the records,
`runs_swap` the whole replacement when there is room for it. When the room ends within the records the
index goes; when it ends right before the index, the old one stays, and lists the new records as well.
-/

namespace RecordCache

namespace Json

theorem alike_string (a b : String) : (Json.string a).alike (.string b) = (a == b) := by
  simp [alike, bothNaN, isNaN, same, sameScalar]

theorem among_strings (id : String) (ids : List String) :
    (Json.string id).among (ids.map .string) = decide (id ∈ ids) := by
  induction ids with
  | nil => simp [among]
  | cons first rest ih =>
    rw [among] at ih ⊢
    rw [List.map_cons, List.any_cons, ih, alike_string]
    by_cases h : id = first
    · simp [h]
    · simp [h, Ne.symm h]

end Json

namespace Record

/-- A record as it comes from outside: the fields of a document, and nothing staged. -/
def FromDocument (r : Record) : Prop :=
  ∃ fields, (Json.object fields).isDocument = true ∧ r = ofFields fields

theorem json_ofFields (fields : Fields Json) : (ofFields fields).json = .object fields := Keyed.json_ofFields fields

theorem FromDocument.isDocument_json {r : Record} (h : r.FromDocument) : r.json.isDocument = true := by
  obtain ⟨fields, hFields, rfl⟩ := h
  rw [json_ofFields]
  exact hFields

theorem FromDocument.read_json {r : Record} (h : r.FromDocument) :
    ofFields <$> r.json.readBack.object? = some r := by
  obtain ⟨fields, hFields, rfl⟩ := h
  rw [json_ofFields, Json.readBack_eq _ hFields]
  rfl

end Record

namespace LocalStore

variable {s : LocalStore} {d : Disk} {records : List Record} {key id : String}

/-- The disk after the records were written one after another. -/
def wrote (s : LocalStore) (d : Disk) (records : List Record) : Disk :=
  records.foldl (fun d r => d.written s.className (r.objectId?.getD "") (.document r.json)) d

theorem wrote_cons (s : LocalStore) (d : Disk) (r : Record) (records : List Record) :
    s.wrote d (r :: records) =
      s.wrote (d.written s.className (r.objectId?.getD "") (.document r.json)) records := rfl

theorem wrote_frame (s : LocalStore) (d : Disk) (records : List Record) :
    (s.wrote d records).kind = d.kind ∧ (s.wrote d records).now = d.now ∧
      (s.wrote d records).fails = d.fails ∧ (s.wrote d records).room = d.room.map (· - records.length) := by
  induction records generalizing d with
  | nil => exact ⟨rfl, rfl, rfl, by cases hRoom : d.room <;> simp [wrote, hRoom]⟩
  | cons r rest ih =>
    obtain ⟨hKind, hNow, hFails, hRoom⟩ :=
      ih (d.written s.className (r.objectId?.getD "") (.document r.json))
    rw [wrote_cons]
    refine ⟨hKind, hNow, hFails, ?_⟩
    rw [hRoom]
    change (d.room.map (· - 1)).map (· - rest.length) = d.room.map (· - (rest.length + 1))
    rw [Option.map_map]
    exact congrArg (fun f => d.room.map f) (funext fun room => by simp only [Function.comp_apply]; omega)

theorem stamp_wrote (s : LocalStore) (d : Disk) (records : List Record) :
    (s.wrote d records).stamp = d.stamp := by
  induction records generalizing d with
  | nil => rfl
  | cons r rest ih => exact ih _

theorem bears_wrote (records : List Record) (h : d.Bears s.className key) :
    (s.wrote d records).Bears s.className key := by
  induction records generalizing d with
  | nil => exact h
  | cons r rest ih => exact ih (h.written _)

/-- A blob is the last of the records with its id, or else the old one. -/
theorem blob_wrote (h : ∀ r ∈ records, r.objectId?.isSome) (key : String) :
    (s.wrote d records).blob s.className key =
      match records.reverse.find? fun r => r.objectId? = some key with
      | some r => some ⟨.document r.json, d.stamp⟩
      | none => d.blob s.className key := by
  induction records generalizing d with
  | nil => rfl
  | cons r rest ih =>
    obtain ⟨id, hId⟩ := Option.isSome_iff_exists.mp (h r List.mem_cons_self)
    rw [wrote_cons, ih fun r hr => h r (List.mem_cons_of_mem _ hr), List.reverse_cons, List.find?_append]
    cases rest.reverse.find? fun r => r.objectId? = some key with
    | some last => rfl
    | none =>
      rw [Disk.blob_written, hId]
      by_cases hKey : id = key
      · simp [hId, hKey]
      · simp [hId, hKey]

/-! ### Runs -/

theorem idJson_eq {r : Record} (h : r.objectId? = some id) : idJson r = .string id := by
  rw [idJson, h]
  rfl

/-- Records that can be kept: documents, under ids whose names the disk bears. -/
def Accepts (s : LocalStore) (d : Disk) (records : List Record) : Prop :=
  ∀ r ∈ records, r.FromDocument ∧ ∃ id, r.objectId? = some id ∧ d.Bears s.className id

theorem Accepts.isSome (h : s.Accepts d records) : ∀ r ∈ records, r.objectId?.isSome := by
  intro r hr
  obtain ⟨-, id, hId, -⟩ := h r hr
  rw [hId, Option.isSome_some]

theorem Accepts.tail {r : Record} (h : s.Accepts d (r :: records)) (content : Blob) :
    s.Accepts (d.written s.className key content) records := by
  intro other hOther
  obtain ⟨hDocument, id, hId, hBears⟩ := h other (List.mem_cons_of_mem _ hOther)
  exact ⟨hDocument, id, hId, hBears.written content⟩

theorem runs_saveAll (hRecords : s.Accepts d records) (hWrites : d.Obeys .write)
    (hRoom : ∀ room, d.room = some room → records.length ≤ room) :
    Runs (records.forM s.saveRecord) d (.ok ()) (s.wrote d records) := by
  induction records generalizing d with
  | nil => exact .ret _ _
  | cons r rest ih =>
    obtain ⟨hDocument, id, hId, hBears⟩ := hRecords r List.mem_cons_self
    have hSave : Runs (s.saveRecord r) d (.ok ()) (d.written s.className id (.document r.json)) := by
      rw [saveRecord, idJson_eq hId]
      refine runs_save hBears (Json.isWritable_of_isDocument _ hDocument.isDocument_json)
        (hWrites _) fun hFull => ?_
      simpa using hRoom 0 hFull
    rw [List.forM, wrote_cons, hId]
    refine hSave.bind (ih (hRecords.tail _) hWrites fun room hLeft => ?_)
    obtain ⟨old, hOld, rfl⟩ := Option.map_eq_some_iff.mp hLeft
    have hLength := hRoom old hOld
    rw [List.length_cons] at hLength
    omega

theorem runs_saveAll_fails (hRecords : s.Accepts d records) (hWrites : d.Obeys .write) {room : Nat}
    (hRoom : d.room = some room) (hShort : room < records.length) :
    ∃ fault, Runs (records.forM s.saveRecord) d (.error (.cache fault)) (s.wrote d (records.take room)).counted := by
  induction records generalizing d room with
  | nil => cases hShort
  | cons r rest ih =>
    obtain ⟨hDocument, id, hId, hBears⟩ := hRecords r List.mem_cons_self
    have hWritable := Json.isWritable_of_isDocument _ hDocument.isDocument_json
    rw [List.forM]
    cases room with
    | zero => exact ⟨_, (runs_save_fails _ hWritable (.inr hRoom)).bind_fail⟩
    | succ room =>
      have hSave : Runs (s.saveRecord r) d (.ok ()) (d.written s.className id (.document r.json)) := by
        rw [saveRecord, idJson_eq hId]
        exact runs_save hBears hWritable (hWrites _) (by simp [hRoom])
      rw [List.take_succ_cons, wrote_cons, hId]
      have hLeft : (d.written s.className id (.document r.json)).room = some room := by
        simp [Disk.written, hRoom]
      obtain ⟨fault, hRest⟩ := ih (hRecords.tail _) hWrites hLeft (Nat.lt_of_succ_lt_succ hShort)
      exact ⟨fault, hSave.bind hRest⟩

/-- An id that is met again is passed over. -/
theorem foldl_addId (ids : List String) :
    (ids.map Json.string).foldl addId [] = ids.eraseDups.map .string := by
  induction ids using List.reverseRecOn with
  | nil => rfl
  | append_singleton ids id ih =>
    rw [List.map_append, List.foldl_append, ih, List.map_singleton, List.foldl_cons, List.foldl_nil, addId,
      Json.among_strings, List.eraseDups_append]
    by_cases hMem : id ∈ ids
    · simp [List.mem_eraseDups, List.removeAll, hMem]
    · simp [List.mem_eraseDups, List.removeAll, hMem, List.eraseDups_cons]

theorem eraseDups_of_nodup {ids : List String} (h : ids.Nodup) : ids.eraseDups = ids := by
  induction ids with
  | nil => rfl
  | cons id rest ih =>
    obtain ⟨hNew, hRest⟩ := List.nodup_cons.mp h
    have hOthers : rest.filter (fun other => !other == id) = rest := by
      refine List.filter_eq_self.mpr fun other hOther => ?_
      have hApart : other ≠ id := fun hSame => hNew (hSame ▸ hOther)
      simpa using hApart
    rw [List.eraseDups_cons, hOthers, ih hRest]

/-- The index that lists these ids. -/
def index (ids : List String) : Json := .array (ids.map .string)

theorem strings_iff (j : Json) (ids : List String) :
    (j.array?.bind fun items => items.mapM Json.string?) = some ids ↔ j = index ids := by
  cases j with
  | array items => simpa [Json.array?, index] using Json.mapM_string?_eq_some
  | _ => simp [Json.array?, index]

theorem isWritable_index (ids : List String) : (index ids).isWritable = true := by
  rw [index, Json.isWritable, Json.allWritable_iff]
  intro j hj
  obtain ⟨id, -, rfl⟩ := List.mem_map.mp hj
  rfl

theorem runs_resetIndex {ids : List String} {d' : Disk} {r : Except Error Unit}
    (h : Runs (s.save indexKey (index ids.eraseDups)) d r d') (hCached : Cached r) :
    Runs (s.resetIndex (index ids)) d (.ok ()) d' := by
  have hSave : Runs (s.saveIndex ((ids.map Json.string).foldl addId [])) d (.ok ()) d' := by
    rw [foldl_addId, saveIndex]
    have hServed := (runs_whenServed h).map (Function.const (Option Unit) ())
    cases r with
    | ok a => exact hServed
    | error e =>
      rw [served, if_pos (hCached e rfl)] at hServed
      exact hServed
  exact .bind (.ofExcept (.ok (ids.map Json.string)) d) hSave

variable {ids : List String}

theorem ids_eq (hIds : records.map Record.objectId? = ids.map some) :
    Json.array (records.map idJson) = index ids := by
  have hJson : records.map idJson = (records.map Record.objectId?).map fun id? =>
    (id?.map Json.string).getD .null := by
    rw [List.map_map]
    rfl
  rw [hJson, hIds, List.map_map]
  rfl

/-- Records with one id are written one over the other, and their id is listed once. -/
theorem runs_swap_repeating (hRecords : s.Accepts d records)
    (hIds : records.map Record.objectId? = ids.map some) (hIndex : d.Bears s.className ".list")
    (hWrites : d.Obeys .write) (hRoom : ∀ room, d.room = some room → records.length < room) :
    Runs (s.swap records) d (.ok ())
      ((s.wrote d records).written s.className ".list" (.document (index ids.eraseDups))) := by
  obtain ⟨-, -, hFails, hLeft⟩ := wrote_frame s d records
  have hSave : Runs (s.save indexKey (index ids.eraseDups)) (s.wrote d records) (.ok ())
      ((s.wrote d records).written s.className ".list" (.document (index ids.eraseDups))) := by
    refine runs_save (bears_wrote records hIndex) (isWritable_index _)
      (by rw [hFails]; exact hWrites _) ?_
    rw [hLeft]
    intro hFull
    obtain ⟨room, hOld, hNone⟩ := Option.map_eq_some_iff.mp hFull
    have hLonger := hRoom room hOld
    omega
  rw [swap]
  refine .bind (runs_whenServed
    (runs_saveAll hRecords hWrites fun room hOld => Nat.le_of_lt (hRoom room hOld))) ?_
  simp only
  rw [ids_eq hIds]
  exact runs_resetIndex hSave fun e h => by cases h

theorem runs_swap (hRecords : s.Accepts d records) (hIds : records.map Record.objectId? = ids.map some)
    (hNodup : ids.Nodup) (hIndex : d.Bears s.className ".list") (hWrites : d.Obeys .write)
    (hRoom : ∀ room, d.room = some room → records.length < room) :
    Runs (s.swap records) d (.ok ())
      ((s.wrote d records).written s.className ".list" (.document (index ids))) := by
  have hSwap := runs_swap_repeating hRecords hIds hIndex hWrites hRoom
  rwa [eraseDups_of_nodup hNodup] at hSwap

/-- The room ends right before the index. -/
theorem runs_swap_unlisted (hRecords : s.Accepts d records)
    (hIds : records.map Record.objectId? = ids.map some) (hWrites : d.Obeys .write)
    (hRoom : d.room = some records.length) :
    Runs (s.swap records) d (.ok ()) (s.wrote d records).counted := by
  obtain ⟨-, -, -, hLeft⟩ := wrote_frame s d records
  -- the index is not written, and what is cached under its name stays
  have hFull : (s.wrote d records).room = some 0 := by rw [hLeft, hRoom, Option.map_some, Nat.sub_self]
  rw [swap]
  refine .bind (runs_whenServed (runs_saveAll hRecords hWrites fun room hOld => ?_)) ?_
  · rw [hRoom, Option.some.injEq] at hOld
    exact Nat.le_of_eq hOld
  simp only
  rw [ids_eq hIds]
  refine runs_resetIndex (runs_save_fails _ (isWritable_index _) (.inr hFull)) fun e h => ?_
  cases h
  rfl

theorem runs_swap_short (hRecords : s.Accepts d records) (hIndex : d.Bears s.className ".list")
    (hWrites : d.Obeys .write) (hRemoves : d.Obeys .remove) {room : Nat} (hRoom : d.room = some room)
    (hShort : room < records.length) :
    Runs (s.swap records) d (.ok ())
      ((s.wrote d (records.take room)).counted.removed s.className ".list") := by
  obtain ⟨-, -, hFails, -⟩ := wrote_frame s d (records.take room)
  obtain ⟨fault, hSaves⟩ := runs_saveAll_fails hRecords hWrites hRoom hShort
  rw [swap]
  refine .bind (runs_whenServed hSaves) ?_
  refine runs_discardBlob (bears_wrote (records.take room) hIndex).counted ?_
  change (s.wrote d (records.take room)).fails .remove _ = false
  rw [hFails]
  exact hRemoves _

/-! ### Reading back -/

theorem idsIn_of_index {mtime : Float}
    (h : d.blob s.className ".list" = some ⟨.document (index ids), mtime⟩) :
    s.idsIn d =
      if s.outlived (d.now - mtime) then
        .error (.cache (.expired s.className (.string ".list") (d.now - mtime)))
      else .ok ids := by
  have hRead : (Json.array? (index ids).readBack).bind
    (fun items => items.mapM Json.string?) = some ids := by
    have hDocument : (index ids).isDocument = true := by
      rw [index, Json.isDocument_array]
      intro j hj
      obtain ⟨id, -, rfl⟩ := List.mem_map.mp hj
      rfl
    exact (strings_iff _ _).mpr (Json.readBack_eq _ hDocument)
  rw [idsIn, reading, h]
  simp only [Blob.json?, Option.bind_some, hRead]

theorem recordIn_of_record {r : Record} {mtime : Float} (hDocument : r.FromDocument)
    (h : d.blob s.className id = some ⟨.document r.json, mtime⟩) :
    s.recordIn d id =
      if s.outlived (d.now - mtime) then .error (.cache (.expired s.className (.string id) (d.now - mtime)))
      else .ok r := by
  rw [recordIn, reading, h]
  simp only [Blob.json?, Option.bind_some]
  split
  · rfl
  · have hRead := hDocument.read_json
    cases hFields : r.json.readBack.object? with
    | none =>
      rw [hFields] at hRead
      cases hRead
    | some fields =>
      rw [hFields] at hRead
      cases hRead
      rfl

theorem allIn_of_fresh {mtime : Float}
    (hIndex : d.blob s.className ".list" = some ⟨.document (index ids), mtime⟩)
    (hFresh : s.outlived (d.now - mtime) = false)
    (hRecords : List.Forall₂ (fun id r => r.FromDocument ∧ ∃ mtime,
      d.blob s.className id = some ⟨.document r.json, mtime⟩ ∧
        s.outlived (d.now - mtime) = false) ids records) :
    s.allIn d = .ok records := by
  rw [allIn, idsIn_of_index hIndex, hFresh]
  refine Except.mapM_eq_ok.mpr (hRecords.imp fun id r h => ?_)
  obtain ⟨hDocument, mtime, hBlob, hYoung⟩ := h
  rw [recordIn_of_record hDocument hBlob, hYoung]
  rfl

end LocalStore

end RecordCache
