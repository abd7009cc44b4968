import RecordCache.Proofs.Disk.Refill
import RecordCache.Proofs.LocalStore.Blobs

/-!
# Records that are kept alike

Bringing a record into a store writes its blob and lists its id, and the blob is not read on the way but where it
stands for the index, which an object cannot do. So two records with one id leave the same disk, but for what is in
the blob, where the first one is written; where it is not, they leave the same.
-/

namespace RecordCache.LocalStore

variable {α β : Type} {s : LocalStore} {spot : Spot} {stored : Stored} {content : Blob} {d d' : Disk}

/-- The work leaves the blob as it is, and comes to the same with another content in it. -/
def Spares (spot : Spot) (stored : Stored) (content : Blob) (d : Disk) (work : Serving α) : Prop :=
  ∀ r d', Runs work d r d' → d'.blobs.get? spot = some stored ∧
    Runs work (d.refilled spot content) r (d'.refilled spot content)

namespace Spares

theorem of_run {work : Serving α} {r : Except Error α} (hRun : Runs work d r d')
    (hThere : d'.blobs.get? spot = some stored)
    (hAlike : Runs work (d.refilled spot content) r (d'.refilled spot content)) :
    Spares spot stored content d work := by
  intro r₁ d₁ hKnown
  obtain ⟨rfl, rfl⟩ := hKnown.unique hRun
  exact ⟨hThere, hAlike⟩

theorem ret (hThere : d.blobs.get? spot = some stored) (a : α) : Spares spot stored content d (pure a) :=
  of_run (.ret a d) hThere (.ret a _)

theorem fail (hThere : d.blobs.get? spot = some stored) (e : Error) :
    Spares spot stored content d (throw e : Serving α) :=
  of_run (.fail e d) hThere (.fail e _)

theorem ofExcept (hThere : d.blobs.get? spot = some stored) (r : Except Error α) :
    Spares spot stored content d (liftM r : Serving α) :=
  of_run (.ofExcept r d) hThere (.ofExcept r _)

theorem bind {work : Serving α} {next : α → Serving β} (h : Spares spot stored content d work)
    (hNext : ∀ a d', Runs work d (.ok a) d' → d'.blobs.get? spot = some stored →
      Spares spot stored content d' (next a)) : Spares spot stored content d (work >>= next) := by
  intro r d' hRun
  obtain ⟨a, d₁, hFirst, hRest⟩ | ⟨e, rfl, hFirst⟩ := Runs.bind_iff.mp hRun
  · obtain ⟨hThere, hAlike⟩ := h _ _ hFirst
    obtain ⟨hEnd, hRestAlike⟩ := hNext a d₁ hFirst hThere _ _ hRest
    exact ⟨hEnd, hAlike.bind hRestAlike⟩
  · obtain ⟨hThere, hAlike⟩ := h _ _ hFirst
    exact ⟨hThere, hAlike.bind_fail⟩

theorem map {work : Serving α} (f : α → β) (h : Spares spot stored content d work) :
    Spares spot stored content d (f <$> work) := by
  rw [map_eq_pure_bind]
  exact h.bind fun a d' _ hThere => ret hThere (f a)

theorem whenServed {work : Serving α} (h : Spares spot stored content d work) :
    Spares spot stored content d (LocalStore.whenServed work) := by
  obtain ⟨r, d₁, hWork⟩ := Runs.exists_run work d
  obtain ⟨hThere, hAlike⟩ := h _ _ hWork
  exact of_run (runs_whenServed hWork) hThere (runs_whenServed hAlike)

end Spares

/-! ### Writing elsewhere -/

theorem save_eq (key : Json) {j : Json} (hWritable : j.isWritable = true) :
    s.save key j = s.access key (Disk.write (s.place key) (.document j)) := by
  rw [save, hWritable]
  rfl

theorem save_eq_throw (key : Json) {j : Json} (h : j.isWritable = false) :
    Runs (s.save key j) d (.error (.data .notWritable)) d := by
  rw [save, h]
  exact .bind_fail (.fail _ _)

theorem Spares.save (hThere : d.blobs.get? spot = some stored) {key : Json}
    (hElsewhere : ∀ other d₁, Runs (Disk.landing (s.place key)) d (.ok other) d₁ → other ≠ spot) (j : Json) :
    Spares spot stored content d (s.save key j) := by
  cases hWritable : j.isWritable with
  | false => exact of_run (save_eq_throw key hWritable) hThere (save_eq_throw key hWritable)
  | true =>
    have hOutside := Disk.outside_landing (s.place key)
    rw [save_eq key hWritable]
    obtain ⟨r, d₂, hWrite⟩ := Runs.exists_run (Disk.write (s.place key) (.document j)) d
    obtain ⟨other, d₁, hLanding, rfl, rfl⟩ | ⟨fault, rfl, hLanding⟩ := Disk.run_of_write hWrite
    · have hOther := hElsewhere other d₁ hLanding
      have hWritten := Disk.runs_write_admitted (hOutside.run_refilled hLanding spot content) (.document j)
      rw [← Disk.refilled_put_of_ne hOther] at hWritten
      refine of_run (runs_access key hWrite) ?_ (runs_access key hWritten)
      rw [Disk.put, Assoc.get?_set, if_neg hOther, (hOutside _ _ _ hLanding).1]
      exact hThere
    · have hRefused := Disk.runs_write_refused (hOutside.run_refilled hLanding spot content) (.document j)
      refine of_run (runs_access key hWrite) ?_ (runs_access key hRefused)
      rw [(hOutside _ _ _ hLanding).1]
      exact hThere

/-! ### Reading -/

section Reading

variable {key : Json} {read : Json → Option α} {expected : String}

/-- What a blob that was looked for is taken for, at this time. -/
def accepted (s : LocalStore) (now : Float) (key : Json) (read : Json → Option α) (expected : String) :
    Option Stored → Except Error α
  | none => .error (.cache (.notFound s.className key))
  | some stored =>
    match s.isStale (now - stored.mtime) with
    | .error fault => .error (.data fault)
    | .ok true => .error (.cache (.expired s.className key (now - stored.mtime)))
    | .ok false =>
      match stored.content.json?.bind read with
      | some value => .ok value
      | none => .error (.cache (.wrongFormat s.className key expected))

/-- What looking for a blob comes to. -/
def loaded (s : LocalStore) (d : Disk) (key : Json) (read : Json → Option α) (expected : String) : Except Error α :=
  match d.sought (s.place key) with
  | .error fault => .error (.cache (.storage s.className key fault))
  | .ok found => s.accepted d.now key read expected (found.bind d.blobs.get?)

theorem runs_load_eq (s : LocalStore) (d : Disk) (key : Json) (read : Json → Option α) (expected : String) :
    Runs (s.load key read expected) d (s.loaded d key read expected) d.counted := by
  have hRead := runs_access (s := s) key (Disk.runs_read_sought d (s.place key))
  rw [load, loaded]
  cases hSought : d.sought (s.place key) with
  | error fault =>
    rw [hSought] at hRead
    exact hRead.bind_fail
  | ok found =>
    rw [hSought] at hRead
    refine hRead.bind ?_
    dsimp only
    cases hBlob : found.bind d.blobs.get? with
    | none => exact .fail _ _
    | some stored =>
      have hClock : Runs (getThe Disk : Serving Disk) d.counted (.ok d.counted) d.counted := .state _
      have hNow : d.now = d.counted.now := rfl
      refine hClock.bind ?_
      rw [accepted, hNow]
      cases hStale : s.isStale (d.counted.now - stored.mtime) with
      | error fault => exact .bind_fail (.ofExcept (.error (Error.data fault)) _)
      | ok stale =>
        refine .bind (.ofExcept (.ok stale) _) ?_
        cases stale with
        | true => exact .bind_fail (.fail _ _)
        | false =>
          cases hValue : stored.content.json?.bind read with
          | none => exact .fail _ _
          | some value => exact .ret _ _

/-- A blob that cannot be what is looked for is not read, whatever it holds. -/
theorem loaded_refilled (hThere : d.blobs.get? spot = some stored) (hOld : stored.content.json?.bind read = none)
    (hNew : content.json?.bind read = none) :
    s.loaded (d.refilled spot content) key read expected = s.loaded d key read expected := by
  rw [loaded, loaded, Disk.sought_refilled]
  cases d.sought (s.place key) with
  | error fault => rfl
  | ok found =>
    cases found with
    | none => rfl
    | some located =>
      dsimp only [Disk.refilled]
      rw [Option.bind_some, Option.bind_some, Assoc.get?_adjust]
      split
      · next hSame =>
        rw [← hSame, hThere]
        simp only [Option.map_some, accepted, hOld, hNew]
      · rfl

theorem located_of_loaded (hThere : d.blobs.get? spot = some stored) (hOld : stored.content.json?.bind read = none)
    {a : α} (h : s.loaded d key read expected = .ok a) :
    ∃ located, located ≠ spot ∧ d.locate (s.place key) = .ok (some located) := by
  rw [loaded] at h
  split at h
  · cases h
  · next found hSought =>
    have hLocate : d.locate (s.place key) = .ok found := by
      rw [Disk.sought] at hSought
      split at hSought
      · cases hSought
      · exact hSought
    cases found with
    | none => cases h
    | some located =>
      refine ⟨located, ?_, hLocate⟩
      rintro rfl
      rw [Option.bind_some, hThere, accepted, hOld] at h
      split at h <;> cases h

end Reading

/-! ### Listing an id -/

theorem eq_ok_of_served {r : Except Error α} {a : α} (h : served r = .ok (some a)) : r = .ok a := by
  cases r with
  | ok b =>
    cases h
    rfl
  | error e =>
    rw [served] at h
    split at h <;> cases h

theorem not_ids (fields : Fields Json) :
    ((Blob.document (.object fields)).json?.bind fun j => j.array?.bind fun items => items.mapM Json.string?) =
      none := rfl

theorem Spares.enlist {fields : Fields Json} (hStored : stored.content = .document (.object fields))
    (hThere : d.blobs.get? spot = some stored) (fields' : Fields Json) (ids : Json) :
    Spares spot stored (.document (.object fields')) d (s.enlist ids) := by
  have hOld := not_ids fields
  rw [← hStored] at hOld
  have hList : Spares spot stored (.document (.object fields')) d s.listIds := by
    refine of_run (runs_load_eq s d _ _ _) hThere ?_
    have hRefilled := runs_load_eq s (d.refilled spot (.document (.object fields'))) indexKey
      (fun j => j.array?.bind fun items => items.mapM Json.string?) "a list of ids"
    rw [loaded_refilled hThere hOld (not_ids fields')] at hRefilled
    exact hRefilled
  refine hList.whenServed.bind fun listed d₁ hListed hThere₁ => ?_
  cases listed with
  | none => exact ret hThere₁ _
  | some listed =>
    refine bind (ofExcept hThere₁ (ids.iterate.mapError Error.data)) fun found d₂ hFound hThere₂ => ?_
    refine map _ (whenServed (save hThere₂ (fun other d₃ hLanding => ?_) _))
    have hSame : d₁ = d₂ := (hFound.unique (.ofExcept (ids.iterate.mapError Error.data) d₁)).2.symm
    obtain ⟨hServed, rfl⟩ := hListed.unique (runs_whenServed (runs_load_eq s d indexKey _ _))
    obtain ⟨located, hApart, hLocated⟩ := located_of_loaded hThere hOld (eq_ok_of_served hServed.symm)
    rw [← hSame] at hLanding
    rw [Disk.landing_eq_located ((Disk.locate_counted d _).trans hLocated) hLanding]
    exact hApart

/-! ### Keeping a record -/

/-- The blob of the record is written. -/
def Admits (s : LocalStore) (d : Disk) (r : Record) : Prop := ∃ d', Runs (s.saveRecord r) d (.ok ()) d'

variable {r r' : Record} {result : Except Error Unit}

section Saving

variable (hId : idJson r' = idJson r) (hWritable : r'.json.isWritable = r.json.isWritable)

include hId hWritable

theorem saveRecord_refused {e : Error} (h : Runs (s.saveRecord r) d (.error e) d') :
    Runs (s.saveRecord r') d (.error e) d' := by
  rw [saveRecord] at h ⊢
  rw [hId]
  cases hText : r.json.isWritable with
  | false =>
    obtain ⟨hSame, rfl⟩ := h.unique (save_eq_throw _ hText)
    cases hSame
    exact save_eq_throw _ (hWritable.trans hText)
  | true =>
    obtain ⟨r₁, d₁, hWrite⟩ := Runs.exists_run (Disk.write (s.place (idJson r)) (.document r.json)) d
    rw [save_eq _ hText] at h
    rw [save_eq _ (hWritable.trans hText)]
    obtain ⟨hSame, rfl⟩ := h.unique (runs_access _ hWrite)
    obtain ⟨spot, d₂, -, rfl, -⟩ | ⟨fault, rfl, hLanding⟩ := Disk.run_of_write hWrite
    · cases hSame
    · cases hSame
      exact runs_access _ (Disk.runs_write_refused hLanding _)

theorem saveRecord_taken (h : Runs (s.saveRecord r) d (.ok ()) d') :
    ∃ spot stored, stored.content = .document r.json ∧ d'.blobs.get? spot = some stored ∧
      Runs (s.saveRecord r') d (.ok ()) (d'.refilled spot (.document r'.json)) := by
  rw [saveRecord] at h ⊢
  rw [hId]
  cases hText : r.json.isWritable with
  | false => cases (h.unique (save_eq_throw _ hText)).1
  | true =>
    obtain ⟨r₁, d₁, hWrite⟩ := Runs.exists_run (Disk.write (s.place (idJson r)) (.document r.json)) d
    rw [save_eq _ hText] at h
    rw [save_eq _ (hWritable.trans hText)]
    obtain ⟨hSame, rfl⟩ := h.unique (runs_access _ hWrite)
    obtain ⟨spot, d₂, hLanding, rfl, rfl⟩ | ⟨fault, rfl, -⟩ := Disk.run_of_write hWrite
    · refine ⟨spot, ⟨.document r.json, d₂.stamp⟩, rfl, ?_, ?_⟩
      · rw [Disk.put, Assoc.get?_set, if_pos rfl]
      · rw [Disk.refilled_put]
        exact runs_access _ (Disk.runs_write_admitted hLanding _)
    · cases hSame

/-- What is not written leaves no trace. -/
theorem persist_refused (hAdmits : ¬ s.Admits d r) (h : Runs (s.persist r true) d result d') :
    Runs (s.persist r' true) d result d' := by
  obtain ⟨saved, d₁, hSave⟩ := Runs.exists_run (s.saveRecord r) d
  cases saved with
  | ok written => exact absurd ⟨d₁, hSave⟩ hAdmits
  | error e =>
    have hServed := runs_whenServed hSave
    have hServed' := runs_whenServed (saveRecord_refused hId hWritable hSave)
    rw [persist] at h ⊢
    rw [served] at hServed hServed'
    by_cases hCache : e.isCache = true
    · rw [if_pos hCache] at hServed hServed'
      obtain ⟨rfl, rfl⟩ := h.unique (hServed.bind (.ret () d₁))
      exact hServed'.bind (.ret () _)
    · rw [if_neg hCache] at hServed hServed'
      obtain ⟨rfl, rfl⟩ := h.unique hServed.bind_fail
      exact hServed'.bind_fail

theorem persist_taken {fields fields' : Fields Json} (hJson : r.json = .object fields)
    (hJson' : r'.json = .object fields') (hAdmits : s.Admits d r) (h : Runs (s.persist r true) d result d') :
    ∃ spot stored, stored.content = .document r.json ∧ d'.blobs.get? spot = some stored ∧
      Runs (s.persist r' true) d result (d'.refilled spot (.document r'.json)) := by
  obtain ⟨d₁, hSave⟩ := hAdmits
  obtain ⟨spot, stored, hStored, hThere, hSave'⟩ := saveRecord_taken hId hWritable hSave
  obtain ⟨r₂, d₂, hEnlist⟩ := Runs.exists_run (s.enlist (.array [idJson r])) d₁
  rw [hJson] at hStored
  obtain ⟨hStays, hAlike⟩ := Spares.enlist hStored hThere fields' _ _ _ hEnlist
  rw [← hJson', ← hId] at hAlike
  have hPersist : Runs (s.persist r true) d r₂ d₂ := (runs_whenServed hSave).bind hEnlist
  obtain ⟨rfl, rfl⟩ := h.unique hPersist
  exact ⟨spot, stored, hStored.trans (congrArg Blob.document hJson.symm), hStays,
    (runs_whenServed hSave').bind hAlike⟩

end Saving

end RecordCache.LocalStore
