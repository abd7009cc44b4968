import RecordCache.Proofs.Client.Updates
import RecordCache.Proofs.Operation.Body

/-!
# Saving what is staged

An entity that is on the server already is saved by an update, and its record is then made in one of two ways: the
cached record with the changes, if the class has one that can be used, else the entity's own record with what was
sent. Saving should change the entity's own record, by what was staged and by the time that the server gives, whichever
way is taken.
-/

namespace RecordCache

namespace Record

/-- What is staged, as it is sent. -/
def stagedFields (r : Record) : Fields Json := r.pending.map fun e => (e.1, e.2.json)

/-- What is staged, and the time of the change if there is one. -/
def changes (r : Record) (time : Option Json) : Fields Json :=
  r.stagedFields ++ time.toList.map fun t => ("updatedAt", t)

/-- The record with what is staged in place, as of this time. -/
def settled (r : Record) (time : Option Json) : Record := r.merged (r.changes time)

/-- The records have the same fields, in whatever order. -/
def SameFields (r r' : Record) : Prop := ∀ key, Assoc.get? r.raw key = Assoc.get? r'.raw key

/-- The records have the same fields, but for those. -/
def SameBut (fields : Fields Json) (r r' : Record) : Prop :=
  ∀ key ∉ Assoc.keys (Keyed.ofFields fields), Assoc.get? r.raw key = Assoc.get? r'.raw key

theorem sameFields_merged_iff (r r' : Record) (fields : Fields Json) :
    (r.merged fields).SameFields (r'.merged fields) ↔ SameBut fields r r' :=
  Assoc.get?_merge_eq_iff r.raw r'.raw (Keyed.ofFields fields)

theorem merged_append (r : Record) (fields fields' : Fields Json) :
    r.merged (fields ++ fields') = (r.merged fields).merged fields' := by
  rw [merged, Keyed.ofFields_append, Assoc.merge_append]
  rfl

/-- A time that the record has already changes nothing. -/
theorem sameFields_merged_time_iff (r : Record) (time : Option Json) :
    r.SameFields (r.merged (time.toList.map fun t => ("updatedAt", t))) ↔ ∀ t ∈ time, r.get? "updatedAt" = some t := by
  cases time with
  | none => exact ⟨fun _ _ h => (nomatch h), fun _ _ => rfl⟩
  | some t =>
    have hSet : (r.merged [("updatedAt", t)]).raw = Assoc.set r.raw (.string "updatedAt") t := rfl
    change (∀ key, _ = Assoc.get? (r.merged [("updatedAt", t)]).raw key) ↔ _
    simp only [hSet, Assoc.get?_set, Option.mem_some_iff, forall_eq', get?]
    constructor
    · exact fun h => (h "updatedAt").trans (if_pos rfl)
    · intro h key
      split
      · next hKey => exact hKey ▸ h
      · rfl

/-- A record that was merged with what was sent lacks the time, unless it had it. -/
theorem sameFields_sent_iff (r : Record) (time : Option Json) :
    (r.merged (Assoc.ofList r.stagedFields)).SameFields (r.settled time) ↔
      ∀ t ∈ time, (r.settled none).get? "updatedAt" = some t := by
  have hNone : r.settled none = r.merged r.stagedFields := by
    rw [settled, changes, Option.toList_none, List.map_nil, List.append_nil]
  have hSent (key : Scalar) :
      Assoc.get? (r.merged (Assoc.ofList r.stagedFields)).raw key = Assoc.get? (r.settled none).raw key := by
    rw [hNone, merged, merged, Assoc.ofList, Keyed.ofFields_merge]
    exact Assoc.get?_merge_ofList r.raw _ key
  rw [← sameFields_merged_time_iff, settled, changes, merged_append, ← hNone]
  simp only [SameFields, hSent]

theorem isWritable_merged {r : Record} {fields : Fields Json} (hRaw : ∀ e ∈ r.raw, e.2.isWritable = true)
    (hFields : ∀ e ∈ fields, e.2.isWritable = true) : (r.merged fields).json.isWritable = true := by
  refine Keyed.isWritable_json fun e he => ?_
  rcases Assoc.mem_merge he with hOld | hNew
  · exact hRaw e hOld
  · obtain ⟨field, hField, rfl⟩ := List.mem_map.mp hNew
    exact hFields field hField

end Record

namespace Batch

variable {c : String} {r : Record}

theorem compose_ofRecord (c : String) (r : Record) : (ofRecord c r).compose = .ok (Assoc.ofList r.stagedFields) :=
  compose_sets rfl

theorem apply_ofRecord (c : String) (r : Record) (raw : Keyed Json) :
    (ofRecord c r).apply raw = .ok (Assoc.merge raw (Keyed.ofFields r.stagedFields)) := apply_sets rfl raw

theorem changed_ofRecord {answer : Json} {time : Option Json} (hTime : Session.updateTime? answer = .ok time)
    (cached : Record) : (ofRecord c r).changed answer cached = .ok (cached.merged (r.changes time)) := by
  rw [changed, apply_ofRecord, hTime, Record.changes, Record.merged_append]
  rfl

end Batch

namespace Session

theorem isWritable_updateTime? {answer : Json} {time : Option Json} (hWritable : answer.isWritable = true)
    (hTime : updateTime? answer = .ok time) : ∀ t ∈ time, t.isWritable = true := by
  intro t ht
  rw [updateTime?.eq_def] at hTime
  split at hTime
  · cases hTime
    exact (Json.isWritable_object _).mp hWritable _ (Assoc.mem_of_get? ht)
  · split at hTime <;> cases hTime
    cases ht
  · split at hTime <;> cases hTime
    cases ht
  · cases hTime

variable {κ α : Type} {s t : Session κ α} {c id : String} {e : Entity} {answer : Json} {time : Option Json}

theorem objectId_ofRecord (hId : e.objectId? = some id) :
    (Batch.ofRecord e.classText e.record).objectId = .string id := by
  rw [Entity.objectId?] at hId
  rw [Batch.ofRecord, hId]
  rfl

/-- The record that an entity has once it is saved: without a cached one its own is used, and the time of the answer is
not. -/
theorem exists_saveHeld (hRegistry : s.registry.Consistent) (hId : e.objectId? = some id)
    (hStaged : ∀ staged ∈ e.record.pending, staged.2.json.isWritable = true)
    (hAnswers : s.Answers (.ofRecord e.classText e.record) answer) (hWritable : answer.isWritable = true)
    (hTime : updateTime? answer = .ok time) :
    ∃ record t, Runs saveHeld (e, s) (.ok record) ({ e with record }, t) ∧
      ((∃ cached, s.Holds e.classText id cached ∧ record = cached.merged (e.record.changes time)) ∨
        (∀ cached, ¬ s.Holds e.classText id cached) ∧
          record = e.record.merged (Assoc.ofList e.record.stagedFields)) := by
  have hChanges (cached : Record) (hHolds : s.Holds e.classText id cached) :
      ∃ r', (Batch.ofRecord e.classText e.record).changed answer cached = .ok r' ∧ r'.json.isWritable = true := by
    refine ⟨_, Batch.changed_ofRecord hTime cached, Record.isWritable_merged (isWritable_of_holds hHolds) ?_⟩
    refine List.forall_mem_append.mpr ⟨?_, ?_⟩
    · intro field hField
      obtain ⟨staged, hMem, rfl⟩ := List.mem_map.mp hField
      exact hStaged staged hMem
    · intro field hField
      obtain ⟨t, ht, rfl⟩ := List.mem_map.mp hField
      exact isWritable_updateTime? hWritable hTime t (Option.mem_toList.mp ht)
  obtain ⟨found, t, hUpdate, hFound⟩ := exists_update hRegistry (objectId_ofRecord hId) hAnswers hChanges
  rcases hFound with ⟨cached, record, hHolds, hChanged, rfl⟩ | ⟨hNone, rfl⟩
  · cases (Batch.changed_ofRecord hTime cached).symm.trans hChanged
    have hSave : Runs (saveEntity e) s (.ok { e with record := cached.merged (e.record.changes time) }) t := by
      rw [saveEntity, hId]
      exact hUpdate.bind (.bind (.ret _ _) (.ret _ _))
    exact ⟨_, t, runs_saveHeld hSave, .inl ⟨cached, hHolds, rfl⟩⟩
  · have hSave : Runs (saveEntity e) s
        (.ok { e with record := e.record.merged (Assoc.ofList e.record.stagedFields) }) t := by
      rw [saveEntity, hId, Batch.compose_ofRecord]
      exact hUpdate.bind (.bind (.bind (runs_ofExcept (.ok _) _) (.ret _ _)) (.ret _ _))
    exact ⟨_, t, runs_saveHeld hSave, .inr ⟨hNone, rfl⟩⟩

/-- An entity that is on the server keeps what it holds when saving it fails. When the server takes the update, nothing
is staged any more, and the entity has its own fields with what was staged and with the time of the answer exactly when
the cached record, if one can be used, has those fields as well, and otherwise the time is no news. -/
theorem saveHeld_settles_iff (hRegistry : s.registry.Consistent) (hId : e.objectId? = some id) :
    (∀ error held t, Runs saveHeld (e, s) (.error error) (held, t) → held = e) ∧
    ∀ answer time, s.Answers (.ofRecord e.classText e.record) answer → answer.isWritable = true →
      updateTime? answer = .ok time → (∀ staged ∈ e.record.pending, staged.2.json.isWritable = true) →
      ∃ record t, Runs saveHeld (e, s) (.ok record) ({ e with record }, t) ∧ record.pending = [] ∧
        (record.SameFields (e.record.settled time) ↔
          (∀ cached, s.Holds e.classText id cached → cached.SameBut (e.record.changes time) e.record) ∧
          ((∀ cached, ¬ s.Holds e.classText id cached) →
            ∀ t ∈ time, (e.record.settled none).get? "updatedAt" = some t)) := by
  refine ⟨fun error held t => held_of_saveHeld_fails, fun answer time hAnswers hWritable hTime hStaged => ?_⟩
  obtain ⟨record, t, hRun, hRecord⟩ := exists_saveHeld hRegistry hId hStaged hAnswers hWritable hTime
  refine ⟨record, t, hRun, ?_⟩
  rcases hRecord with ⟨cached, hHolds, rfl⟩ | ⟨hNone, rfl⟩
  · refine ⟨rfl, (Record.sameFields_merged_iff _ _ _).trans ⟨fun hSame => ⟨fun other hOther => ?_, fun hNone => ?_⟩,
      fun hSame => hSame.1 cached hHolds⟩⟩
    · rw [hHolds.unique hOther] at hSame
      exact hSame
    · exact absurd hHolds (hNone cached)
  · refine ⟨rfl, (Record.sameFields_sent_iff e.record time).trans
      ⟨fun hKnown => ⟨fun cached hCached => ?_, fun _ => hKnown⟩, fun hSame => hSame.2 hNone⟩⟩
    exact absurd hCached (hNone cached)

/-! ### A note with a new title -/

def titledNote (title : String) : Fields Json :=
  [("objectId", .string "a"), ("title", .string title), ("updatedAt", .string "2015-01-01T00:00:00.000Z")]

def draft : Entity where
  schema := { name := "Note", className := some "Note" }
  record := { raw := Keyed.ofFields (titledNote "old"), pending := [("title", .scalar (.string "new"))] }

def laterTime : Json := .string "2016-01-01T00:00:00.000Z"

/-- The server takes the next update, and tells its time. -/
def taking (blobs : Assoc Spot Stored) : Session Unit Unit where
  disk := { blobs }
  registry := { windows := [("Note", .int 60)] }
  server := [fun _ => .ok (.object [("updatedAt", laterTime)])]
  app := ()

theorem answers_taking (blobs : Assoc Spot Stored) :
    (taking blobs).Answers (.ofRecord draft.classText draft.record) (.object [("updatedAt", laterTime)]) :=
  ⟨_, _, rfl, rfl⟩

theorem consistent_taking (blobs : Assoc Spot Stored) : (taking blobs).registry.Consistent where
  numbers name window hWindow := by
    rw [taking, Assoc.get?_cons] at hWindow
    split at hWindow <;> cases hWindow
    rfl
  kept _ _ h := nomatch h

/-- In the cache the note has another title. -/
def retitled : Session Unit Unit :=
  taking [(⟨"Note", .string "a"⟩, ⟨.document (.object (titledNote "older")), 1000.0⟩)]

theorem holds_retitled : retitled.Holds "Note" "a" (.ofFields (titledNote "older")) := by
  have hRead : retitled.disk.readAt retitled.disk.accesses ⟨"Note", .string "a"⟩ =
      .ok (retitled.disk.blob "Note" "a") :=
    Disk.readAt_of_bears (Disk.bears_of_kind (by decide) _ _) rfl
  exact ⟨.int 60, .int 60, titledNote "older", rfl, rfl, ⟨_, hRead, by decide +kernel, rfl⟩, rfl⟩

/-- The title is the one field that is sent, so it may differ. -/
theorem saveHeld_settles_draft :
    ∃ record t, Runs saveHeld (draft, retitled) (.ok record) ({ draft with record }, t) ∧ record.pending = [] ∧
      record.SameFields (draft.record.settled (some laterTime)) := by
  obtain ⟨record, t, hRun, hPending, hIff⟩ := (saveHeld_settles_iff (consistent_taking _) rfl).2 _ (some laterTime)
    (answers_taking _) (by decide) rfl (by decide)
  refine ⟨record, t, hRun, hPending,
    hIff.mpr ⟨fun cached hCached key hKey => ?_, fun hNone => absurd holds_retitled (hNone _)⟩⟩
  rw [hCached.unique holds_retitled]
  have hTitle : Scalar.string "title" ≠ key := fun hSame => hKey (hSame ▸ List.mem_cons_self)
  change Assoc.get? (Keyed.ofFields (titledNote "older")) key = Assoc.get? (Keyed.ofFields (titledNote "old")) key
  simp only [Keyed.ofFields, titledNote, List.map_cons, Assoc.get?_cons, if_neg hTitle]

/-- Without a cached note the new title stands, but the time of the change is lost. -/
theorem not_settled_draft :
    ∃ record t, Runs saveHeld (draft, taking []) (.ok record) ({ draft with record }, t) ∧
      ¬ record.SameFields (draft.record.settled (some laterTime)) := by
  refine ⟨_, _, rfl, fun hSame => ?_⟩
  have hTime : some (Json.string "2015-01-01T00:00:00.000Z") = some laterTime := hSame "updatedAt"
  exact absurd (Json.string.inj (Option.some.inj hTime)) (by decide)

end Session

end RecordCache
