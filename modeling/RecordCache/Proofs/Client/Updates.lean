import RecordCache.Proofs.Client.Fetched
import RecordCache.Proofs.Client.History
import RecordCache.Proofs.Json.Readable

/-!
# Single updates

What an update makes of the record that the cache holds, on whatever disk, and how work runs for something that the
application holds.
-/

namespace RecordCache.Session

variable {κ α β σ : Type} {s t : Session κ α} {b : Batch} {answer : Json} {c id : String} {found : Option Record}

/-! ### What is held -/

theorem runs_onSession {work : Work κ α β} {r : Except Error β} (held : σ) (h : Runs work s r t) :
    Runs (onSession work : Holding σ κ α β) (held, s) r (held, t) := by
  have hStep : (onSession work : Holding σ κ α β).run.run (held, s) =
      ((work.run.run s).1, held, (work.run.run s).2) := rfl
  rw [Runs, hStep, h]

theorem runs_saveHeld {e e' : Entity} (h : Runs (saveEntity e) s (.ok e') t) :
    Runs saveHeld (e, s) (.ok e'.record) (e', t) :=
  .bind (.state _) (.bind (runs_onSession e h) (.bind (.alter _ _) (.ret _ _)))

theorem held_of_saveHeld_fails {e held : Entity} {error : Error}
    (h : Runs saveHeld (e, s) (.error error) (held, t)) : held = e := by
  obtain ⟨r, u, hRun⟩ := Runs.exists_run (saveEntity e) s
  cases r with
  | ok e' =>
    obtain ⟨hSame, -⟩ := h.unique (runs_saveHeld hRun)
    cases hSame
  | error error' =>
    obtain ⟨-, hSame⟩ := h.unique (.bind (.state _) (runs_onSession e hRun).bind_fail)
    cases hSame
    rfl

/-! ### The cached record -/

/-- The class is cached, and under this id there is a record that can be used now. -/
def Holds (s : Session κ α) (c id : String) (r : Record) : Prop :=
  ∃ window n fields, s.registry.windows.get? c = some window ∧ window.numeric? = some n ∧
    s.disk.Shows s.disk.accesses ⟨c, .string id⟩ n (.object fields) ∧ r = .ofFields fields

theorem Holds.unique {r r' : Record} (h : s.Holds c id r) (h' : s.Holds c id r') : r = r' := by
  obtain ⟨window, n, fields, hWindow, hNumber, ⟨stored, hRead, -, hContent⟩, rfl⟩ := h
  obtain ⟨window', n', fields', hWindow', hNumber', ⟨stored', hRead', -, hContent'⟩, rfl⟩ := h'
  cases hRead.symm.trans hRead'
  cases hContent.symm.trans hContent'
  rfl

theorem isWritable_of_holds {r : Record} (h : s.Holds c id r) : ∀ e ∈ r.raw, e.2.isWritable = true := by
  obtain ⟨-, n, fields, -, -, ⟨stored, -, -, hContent⟩, rfl⟩ := h
  have hWritable := (Json.isWritable_object fields).mp (Blob.isWritable_of_json? hContent)
  intro e he
  obtain ⟨field, hField, rfl⟩ := List.mem_map.mp he
  exact hWritable field hField

theorem runs_updateCached_found {ref : StoreRef} {j : Json} {u : Session κ α} {cached r : Record} {d d' : Disk}
    (hOwn : Runs (ownStore b.className) s (.ok (some ref)) u)
    (hLook : Runs (LocalStore.whenServed (ref.store.get j)) u.disk (.ok (some cached)) d)
    (hChanged : b.changed answer cached = .ok r) (hKeep : Runs (ref.store.persist r false) d (.ok ()) d') :
    Runs (updateCached b j answer) s (.ok (some r)) { u with disk := d' } := by
  obtain ⟨raw, hRaw, hTimed⟩ := Except.bind_eq_ok.mp hChanged
  obtain ⟨time, hTime, hMade⟩ := Except.bind_eq_ok.mp hTimed
  cases hMade
  refine .bind hOwn (.bind (runs_serve hLook) ?_)
  simp only [hRaw, hTime]
  exact .bind (runs_ofExcept _ _) (.bind (runs_ofExcept _ _)
    (.bind (runs_serve (s := { u with disk := d }) hKeep) (.ret _ _)))

/-- Whatever the disk does, an update of the cached record succeeds where its changes can be made. -/
theorem exists_updateCached (hRegistry : s.registry.Consistent)
    (hChanges : ∀ r, s.Holds b.className id r → ∃ r', b.changed answer r = .ok r' ∧ r'.json.isWritable = true) :
    ∃ found t, Runs (updateCached b (.string id) answer) s (.ok found) t ∧
      ((∃ r r', s.Holds b.className id r ∧ b.changed answer r = .ok r' ∧ found = some r') ∨
        (∀ r, ¬ s.Holds b.className id r) ∧ found = none) := by
  have hStore := runs_store b.className .null s
  have hOwn := (hRegistry.ownStore b.className).2
  change Option.map _ (s.registry.store b.className .null).1 = _ at hOwn
  cases hRef : (s.registry.store b.className .null).1 with
  | none =>
    rw [hRef] at hStore hOwn
    refine ⟨none, _, .bind hStore (.ret none _), .inr ⟨fun r hHolds => ?_, rfl⟩⟩
    obtain ⟨window, -, -, hWindow, -⟩ := hHolds
    rw [hWindow] at hOwn
    cases hOwn
  | some ref =>
    rw [hRef] at hStore hOwn
    obtain ⟨window, hWindow, hSame⟩ := Option.map_eq_some_iff.mp hOwn.symm
    obtain ⟨n, hNumber⟩ := Option.isSome_iff_exists.mp (hRegistry.numbers _ _ hWindow)
    have hWithin : ref.store.Within n := LocalStore.within_of_numeric (by rw [← hSame]; exact hNumber)
    obtain ⟨r, hGet, hShown⟩ := LocalStore.runs_get_iff hWithin id s.disk
    have hHolds (record : Record) : s.Holds b.className id record ↔ r = .ok record := by
      rw [hShown, ← hSame]
      constructor
      · rintro ⟨window', n', fields, hWindow', hNumber', hShows, hRecord⟩
        cases hWindow.symm.trans hWindow'
        cases hNumber.symm.trans hNumber'
        exact ⟨fields, hShows, hRecord⟩
      · rintro ⟨fields, hShows, hRecord⟩
        exact ⟨window, n, fields, hWindow, hNumber, hShows, hRecord⟩
    have hServed := LocalStore.runs_whenServed hGet
    cases r with
    | error e =>
      have hCache := LocalStore.FailsSoftly.get (fun age => ⟨_, hWithin age⟩) _ _ _ _ hGet e rfl
      rw [LocalStore.served, if_pos hCache] at hServed
      refine ⟨none, _, .bind hStore (.bind (runs_serve hServed) (.ret none _)), .inr ⟨fun record h => ?_, rfl⟩⟩
      cases (hHolds record).mp h
    | ok cached =>
      have hCached := (hHolds cached).mpr rfl
      obtain ⟨r', hChanged, hWritable⟩ := hChanges cached hCached
      obtain ⟨disk, hPersist⟩ := LocalStore.exists_persist (s := ref.store) hWritable s.disk.counted
      exact ⟨_, _, runs_updateCached_found hStore hServed hChanged hPersist, .inl ⟨cached, r', hCached, hChanged, rfl⟩⟩

theorem holds_congr (hDisk : t.disk = s.disk) (hRegistry : t.registry = s.registry) (c id : String) (r : Record) :
    t.Holds c id r ↔ s.Holds c id r := by
  rw [Holds, Holds, hDisk, hRegistry]

theorem runs_update {body : Fields Json} {u : Session κ α} (hId : b.objectId = .string id)
    (hBody : b.compose = .ok body)
    (hPut : Runs (request "PUT" (Schema.path b.className b.objectId) (some body)) s (.ok answer) u)
    (hCached : Runs (updateCached b (.string id) answer) u (.ok found) t) :
    Runs (update b) s (.ok found)
      { t with relations := b.operations.foldl (updateRelation (refOf b (.string id))) t.relations } := by
  rw [update, existing_eq hId, hBody]
  rw [hId] at hPut
  exact .bind (runs_ofExcept _ _) (.bind (runs_ofExcept (.ok body) _) (.bind hPut (.bind hCached
    (.bind (.alter _ _) (.ret found _)))))

theorem exists_update (hRegistry : s.registry.Consistent) (hId : b.objectId = .string id)
    (hAnswers : s.Answers b answer)
    (hChanges : ∀ r, s.Holds b.className id r → ∃ r', b.changed answer r = .ok r' ∧ r'.json.isWritable = true) :
    ∃ found t, Runs (update b) s (.ok found) t ∧
      ((∃ r r', s.Holds b.className id r ∧ b.changed answer r = .ok r' ∧ found = some r') ∨
        (∀ r, ¬ s.Holds b.className id r) ∧ found = none) := by
  obtain ⟨body, u, hBody, hPut⟩ := hAnswers
  obtain ⟨hDisk, hSame⟩ := Aside.send _ _ _ _ hPut
  have hHolds := holds_congr hDisk hSame b.className id
  simp only [← hHolds] at hChanges ⊢
  obtain ⟨found, v, hUpdated, hFound⟩ := exists_updateCached (hSame ▸ hRegistry) hChanges
  exact ⟨found, _, runs_update hId hBody hPut hUpdated, hFound⟩

end RecordCache.Session
