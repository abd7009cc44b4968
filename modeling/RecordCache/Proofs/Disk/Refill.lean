import RecordCache.Proofs.Disk.Access

/-!
# One blob with another content

Accesses to a disk do not see what is in its blobs, but for those that read them. So with another content in one
blob, a write does what it does without, as long as it goes elsewhere; and two contents that are written to the same
place leave disks that differ in this blob only.
-/

namespace RecordCache

namespace Assoc

variable {κ α : Type} [DecidableEq κ]

/-- Changes the value of a key, where it is. -/
def adjust (f : α → α) (key : κ) : Assoc κ α → Assoc κ α
  | [] => []
  | (name, old) :: rest => if name = key then (name, f old) :: rest else (name, old) :: adjust f key rest

variable (f : α → α) (key : κ)

theorem keys_adjust (entries : Assoc κ α) : (entries.adjust f key).keys = entries.keys := by
  induction entries with
  | nil => rfl
  | cons entry rest ih =>
    rw [adjust]
    split
    · rfl
    · exact congrArg (entry.1 :: ·) ih

theorem get?_adjust (entries : Assoc κ α) (other : κ) :
    (entries.adjust f key).get? other = if key = other then (entries.get? other).map f else entries.get? other := by
  induction entries with
  | nil => simp [adjust]
  | cons entry rest ih =>
    rw [adjust]
    by_cases hKey : entry.1 = key
    · subst hKey
      by_cases hOther : entry.1 = other <;> simp [get?_cons, hOther]
    · by_cases hOther : entry.1 = other
      · subst hOther
        simp [get?_cons, hKey, Ne.symm hKey]
      · simp [get?_cons, hKey, hOther, ih]

theorem adjust_set (entries : Assoc κ α) (value : α) :
    (entries.set key value).adjust f key = entries.set key (f value) := by
  induction entries with
  | nil => simp [set, adjust]
  | cons entry rest ih => by_cases h : entry.1 = key <;> simp [set, adjust, h, ih]

theorem adjust_set_of_ne {key other : κ} (h : other ≠ key) (entries : Assoc κ α) (value : α) :
    (entries.set other value).adjust f key = (entries.adjust f key).set other value := by
  induction entries with
  | nil => simp [set, adjust, h]
  | cons entry rest ih =>
    by_cases hOther : entry.1 = other
    · simp [set, adjust, hOther, h]
    · by_cases hKey : entry.1 = key
      · simp [set, adjust, hKey, Ne.symm h]
      · simp [set, adjust, hKey, hOther, ih]

end Assoc

namespace Disk

variable {spot : Spot} {content : Blob} {d d' : Disk} {p : Place} {α β : Type}

/-! ### Work that is not about the blobs -/

/-- The work does not change the blobs, and whatever is in them, it comes to the same. -/
def Outside (work : DiskWork α) : Prop :=
  ∀ d r d', Runs work d r d' → d'.blobs = d.blobs ∧
    ∀ blobs : Assoc Spot Stored, blobs.keys = d.blobs.keys → Runs work { d with blobs } r { d' with blobs }

namespace Outside

theorem of_runs {work : DiskWork α} (h : ∀ d, ∃ r d', Runs work d r d' ∧ d'.blobs = d.blobs ∧
    ∀ blobs : Assoc Spot Stored, blobs.keys = d.blobs.keys → Runs work { d with blobs } r { d' with blobs }) :
    Outside work := by
  intro d r d' hRun
  obtain ⟨r₁, d₁, hKnown, hSame⟩ := h d
  obtain ⟨rfl, rfl⟩ := hRun.unique hKnown
  exact hSame

theorem ret (a : α) : Outside (pure a) := of_runs fun d => ⟨_, d, .ret a d, rfl, fun _ _ => .ret a _⟩

theorem fail (fault : DiskFault) : Outside (throw fault : DiskWork α) :=
  of_runs fun d => ⟨_, d, .fail fault d, rfl, fun _ _ => .fail fault _⟩

theorem stop (fault : DiskFault) (next : α → DiskWork β) : Outside (throw fault >>= next) :=
  of_runs fun d => ⟨_, d, .bind_fail (.fail fault d), rfl, fun _ _ => .bind_fail (.fail fault _)⟩

theorem ofExcept (r : Except DiskFault α) : Outside (liftM r : DiskWork α) :=
  of_runs fun d => ⟨r, d, .ofExcept r d, rfl, fun _ _ => .ofExcept r _⟩

theorem bind {work : DiskWork α} {next : α → DiskWork β} (h : Outside work) (hNext : ∀ a, Outside (next a)) :
    Outside (work >>= next) := by
  intro d r d' hRun
  obtain ⟨a, d₁, hFirst, hRest⟩ | ⟨fault, rfl, hFirst⟩ := Runs.bind_iff.mp hRun
  · obtain ⟨hBlobs, hAlike⟩ := h _ _ _ hFirst
    obtain ⟨hRestBlobs, hRestAlike⟩ := hNext a _ _ _ hRest
    exact ⟨hRestBlobs.trans hBlobs, fun blobs hKeys =>
      (hAlike blobs hKeys).bind (hRestAlike blobs (hBlobs ▸ hKeys))⟩
  · obtain ⟨hBlobs, hAlike⟩ := h _ _ _ hFirst
    exact ⟨hBlobs, fun blobs hKeys => (hAlike blobs hKeys).bind_fail⟩

theorem seeing {next : Disk → DiskWork β}
    (hSame : ∀ (d : Disk) (blobs : Assoc Spot Stored), blobs.keys = d.blobs.keys → next { d with blobs } = next d)
    (hNext : ∀ d, Outside (next d)) : Outside (get >>= next) := by
  intro d r d' hRun
  obtain ⟨hBlobs, hAlike⟩ := hNext d _ _ _ (Runs.of_get hRun)
  refine ⟨hBlobs, fun blobs hKeys => ?_⟩
  have hRest := hAlike blobs hKeys
  rw [← hSame d blobs hKeys] at hRest
  exact hRest

end Outside

section Keys

variable (hKeys : d'.blobs.keys = d.blobs.keys) (hFolders : d'.folders = d.folders) (hKind : d'.kind = d.kind)

include hKeys

theorem isFile_of_keys (location : Path.Location) : d'.isFile location = d.isFile location := by
  rw [isFile, isFile, Assoc.contains, Assoc.contains, Bool.eq_iff_iff, ← Assoc.mem_keys_iff, ← Assoc.mem_keys_iff,
    hKeys]

theorem memorySpot_of_keys : d'.memorySpot p = d.memorySpot p := by
  rw [memorySpot, memorySpot, hKeys]

include hFolders

theorem follow_of_keys (here : Path.Location) (names : List String) : d'.follow here names = d.follow here names := by
  induction names generalizing here with
  | nil => rfl
  | cons name rest ih => rw [follow, follow, isFile_of_keys hKeys, ih, isFolder, isFolder, hFolders]

include hKind

/-- Where a blob is looked for depends on which blobs there are, and not on what is in them. -/
theorem locate_of_keys : d'.locate p = d.locate p := by
  have hFile (space key : String) : d'.file? space key = d.file? space key := by
    simp only [file?, follow_of_keys hKeys hFolders, isFile_of_keys hKeys, isFolder, hFolders]
    rfl
  unfold locate
  simp only [memorySpot_of_keys hKeys, hFile, hKind]

end Keys

theorem locate_counted (d : Disk) (p : Place) : d.counted.locate p = d.locate p := locate_of_keys rfl rfl rfl

theorem outside_addFolder (location : Path.Location) :
    Outside (modify (·.addFolder location) : DiskWork PUnit) := by
  refine .of_runs fun d => ⟨_, _, .alter _ d, ?_, fun blobs hKeys => ?_⟩
  · rw [addFolder]
    split <;> rfl
  · have hSame : ({ d with blobs } : Disk).addFolder location = { d.addFolder location with blobs } := by
      rw [addFolder, addFolder, isFile_of_keys (d := d) hKeys]
      have hFolder : ({ d with blobs } : Disk).isFolder location = d.isFolder location := rfl
      rw [hFolder]
      split <;> rfl
    exact hSame ▸ .alter _ _

theorem outside_makeWay (here : Path.Location) (names : List String) : Outside (makeWay here names) := by
  induction names generalizing here with
  | nil =>
    refine .seeing (fun d blobs hKeys => by rw [isFile_of_keys (d := d) hKeys]) fun d => ?_
    split
    · exact .fail _
    · exact .ret _
  | cons name rest ih =>
    rw [makeWay]
    dsimp only
    split
    · exact .stop _ _
    · refine .seeing (fun d blobs hKeys => by rw [isFile_of_keys (d := d) hKeys]) fun d => ?_
      split
      · exact .stop _ _
      · exact (outside_addFolder _).bind fun _ => ih _

theorem outside_fileToWrite (space key : String) : Outside (fileToWrite space key) := by
  rw [fileToWrite]
  dsimp only
  split
  · exact .stop _ _
  · refine (outside_makeWay _ _).bind fun folder => ?_
    split
    · exact .stop _ _
    · refine .seeing (fun d blobs hKeys => rfl) fun d => ?_
      split
      · exact .stop _ _
      · exact .ret _

theorem outside_prepare (p : Place) : Outside (prepare p) := by
  refine .seeing (fun d blobs hKeys => ?_) fun d => ?_
  · have hSpot : ({ d with blobs } : Disk).memorySpot p = d.memorySpot p := memorySpot_of_keys hKeys
    simp only [hSpot]
  · split
    · exact .ofExcept _
    · exact .fail _
    · split
      · exact .ret _
      · exact .fail _
    · exact outside_fileToWrite _ _
    · exact .fail _

/-- Where a blob is written, if the disk takes it. -/
def landing (p : Place) : DiskWork Spot := do
  let failed ← attempt .write
  if failed || (← get).room = some 0 then throw .write
  prepare p

theorem outside_landing (p : Place) : Outside (landing p) := by
  have hAttempt : Outside (ExceptT.lift (attempt .write) : DiskWork Bool) :=
    .of_runs fun d => ⟨_, _, runs_attempt .write d, rfl, fun _ _ => runs_attempt .write _⟩
  refine hAttempt.bind fun failed => .seeing (fun d blobs hKeys => rfl) fun d => ?_
  split
  · exact .stop _ _
  · exact outside_prepare p

/-! ### The place that is read is the one that is written -/

theorem follow_eq_some {here location : Path.Location} {names : List String}
    (h : d.follow here names = .ok (some location)) : location = names.foldl Path.enter here := by
  induction names generalizing here with
  | nil =>
    cases h
    rfl
  | cons name rest ih =>
    rw [follow] at h
    split at h
    · cases h
    · split at h
      · cases h
      · split at h
        · cases h
        · exact ih h

theorem makeWay_eq_ok {here folder : Path.Location} {names : List String}
    (h : Runs (makeWay here names) d (.ok folder) d') : folder = names.foldl Path.enter here := by
  induction names generalizing here d with
  | nil =>
    have hEnd := Runs.of_get h
    split at hEnd
    · cases (hEnd.unique (.fail _ _)).1
    · cases (hEnd.unique (.ret _ _)).1
      rfl
  | cons name rest ih =>
    rw [makeWay] at h
    dsimp only at h
    split at h
    · exact absurd h Runs.not_of_throw
    · have hNext := Runs.of_get h
      split at hNext
      · exact absurd hNext Runs.not_of_throw
      · exact ih (Runs.of_alter hNext)

theorem fileToWrite_eq_ok {space key : String} (h : Runs (fileToWrite space key) d (.ok spot) d') :
    spot = Path.spot ((Path.names space key).foldl Path.enter (Path.start space key)) := by
  rw [fileToWrite] at h
  dsimp only at h
  split at h
  · exact absurd h Runs.not_of_throw
  · obtain ⟨folder, d₁, hFolder, hRest⟩ | ⟨e, hError, -⟩ := Runs.bind_iff.mp h
    · split at hRest
      · exact absurd hRest Runs.not_of_throw
      · have hEnd := Runs.of_get hRest
        split at hEnd
        · exact absurd hEnd Runs.not_of_throw
        · cases (hEnd.unique (.ret _ _)).1
          rw [makeWay_eq_ok hFolder]
          rcases List.eq_nil_or_concat (Path.names space key) with hNone | ⟨names, name, hNames⟩
          · rw [hNone]
            rfl
          · rw [hNames]
            simp
    · cases hError

theorem file?_eq_some {space key : String} (h : d.file? space key = .ok (some spot)) :
    spot = Path.spot ((Path.names space key).foldl Path.enter (Path.start space key)) := by
  rw [file?] at h
  dsimp only at h
  split at h
  · cases h
  · split at h
    · cases h
    · obtain ⟨found, hFound, hEnd⟩ := Except.bind_eq_ok.mp h
      cases found with
      | none => cases hEnd
      | some location =>
        dsimp only at hEnd
        split at hEnd
        · cases hEnd
        · have hSpot := Except.ok.inj hEnd
          split at hSpot
          · cases hSpot
            rw [follow_eq_some hFound]
          · cases hSpot

theorem prepare_eq_located {located : Spot} (hLocated : d.locate p = .ok (some located))
    (h : Runs (prepare p) d (.ok spot) d') : spot = located := by
  have hPrepared := Runs.of_get h
  rw [locate.eq_def] at hLocated
  split at hLocated
  · next hKind =>
    obtain ⟨found, hFound, hSame⟩ := Except.map_eq_ok.mp hLocated
    cases hSame
    simp only [hKind, hFound] at hPrepared
    cases (hPrepared.unique (.ofExcept _ _)).1
    rfl
  · next hKind =>
    split at hLocated
    · next hScalar =>
      cases hLocated
      rw [hKind] at hPrepared
      obtain ⟨space, key⟩ := p
      cases key with
      | null => cases (hPrepared.unique (.fail _ _)).1
      | array items => cases hScalar
      | object fields => cases hScalar
      | other thing parts => cases hScalar
      | _ =>
        cases (hPrepared.unique (.ret _ _)).1
        rfl
    · cases hLocated
  · next hKind hKey =>
    rw [hKind, hKey] at hPrepared
    rw [file?_eq_some hLocated]
    exact fileToWrite_eq_ok hPrepared
  · cases hLocated

theorem landing_eq_located {located : Spot} (hLocated : d.locate p = .ok (some located))
    (h : Runs (landing p) d (.ok spot) d') : spot = located := by
  obtain ⟨failed, d₁, hAttempt, hRest⟩ | ⟨fault, hError, -⟩ := Runs.bind_iff.mp h
  · obtain ⟨-, rfl⟩ := hAttempt.unique (runs_attempt .write d)
    have hPrepare := Runs.of_get hRest
    split at hPrepare
    · exact absurd hPrepare Runs.not_of_throw
    · exact prepare_eq_located ((locate_counted d p).trans hLocated) hPrepare
  · cases hError

/-! ### With another content -/

/-- The disk with another content in the blob at a spot, if there is one. -/
def refilled (spot : Spot) (content : Blob) (d : Disk) : Disk :=
  { d with blobs := d.blobs.adjust (fun stored => { stored with content }) spot }

/-- The disk with a blob written at a spot. -/
def put (spot : Spot) (content : Blob) (d : Disk) : Disk :=
  { d with blobs := d.blobs.set spot ⟨content, d.stamp⟩, room := d.room.map (· - 1) }

theorem refilled_put (spot : Spot) (content content' : Blob) (d : Disk) :
    (d.put spot content).refilled spot content' = d.put spot content' := by
  rw [refilled, put, Assoc.adjust_set]
  rfl

theorem refilled_put_of_ne {other : Spot} (h : other ≠ spot) (written : Blob) (d : Disk) :
    (d.put other written).refilled spot content = (d.refilled spot content).put other written := by
  rw [refilled, put, Assoc.adjust_set_of_ne _ h]
  rfl

theorem keys_refilled (spot : Spot) (content : Blob) (d : Disk) :
    (d.refilled spot content).blobs.keys = d.blobs.keys := Assoc.keys_adjust _ _ _

theorem Outside.run_refilled {work : DiskWork α} (h : Outside work) {r : Except DiskFault α}
    (hRun : Runs work d r d') (spot : Spot) (content : Blob) :
    Runs work (d.refilled spot content) r (d'.refilled spot content) := by
  obtain ⟨hBlobs, hAlike⟩ := h _ _ _ hRun
  have hLeft : d'.refilled spot content = { d' with blobs := (d.refilled spot content).blobs } := by
    rw [refilled, hBlobs]
    rfl
  rw [hLeft]
  exact hAlike _ (keys_refilled spot content d)

/-! ### Accesses -/

/-- Where a blob is read, if the disk lets it. -/
def sought (d : Disk) (p : Place) : Except DiskFault (Option Spot) :=
  if d.fails .read d.accesses then .error .read else d.locate p

theorem sought_refilled : (d.refilled spot content).sought p = d.sought p := by
  rw [sought, sought, locate_of_keys (keys_refilled spot content d) rfl rfl]
  rfl

theorem runs_read_sought (d : Disk) (p : Place) :
    Runs (Disk.read p) d ((fun found => found.bind d.blobs.get?) <$> d.sought p) d.counted := by
  cases hFails : d.fails .read d.accesses with
  | true =>
    rw [sought, if_pos hFails]
    exact runs_read_fails p hFails
  | false =>
    have hLocate : d.sought p = d.counted.locate p := by
      rw [sought, locate_counted, hFails]
      rfl
    rw [hLocate, Disk.read]
    refine .bind (runs_attempt .read d) ?_
    simp only [hFails, Bool.false_eq_true, if_false]
    refine .bind (.state _) ?_
    cases d.counted.locate p with
    | error fault => exact .bind_fail (.ofExcept _ _)
    | ok found => exact .bind (.ofExcept _ _) (.ret _ _)

theorem write_eq (p : Place) (content : Blob) :
    Disk.write p content = landing p >>= fun spot => modify (put spot content) := by
  rw [Disk.write, landing, bind_assoc]
  refine bind_congr fun failed => ?_
  rw [bind_assoc]
  refine bind_congr fun d => ?_
  split <;> rfl

theorem run_of_write {r : Except DiskFault Unit} (h : Runs (Disk.write p content) d r d') :
    (∃ spot d₁, Runs (landing p) d (.ok spot) d₁ ∧ r = .ok () ∧ d' = d₁.put spot content) ∨
      ∃ fault, r = .error fault ∧ Runs (landing p) d (.error fault) d' := by
  rw [write_eq] at h
  obtain ⟨spot, d₁, hLanding, hPut⟩ | hFails := Runs.bind_iff.mp h
  · obtain ⟨rfl, rfl⟩ := hPut.unique (.alter _ _)
    exact .inl ⟨spot, d₁, hLanding, rfl, rfl⟩
  · exact .inr hFails

theorem runs_write_admitted {d₁ : Disk} (h : Runs (landing p) d (.ok spot) d₁) (content : Blob) :
    Runs (Disk.write p content) d (.ok ()) (d₁.put spot content) := by
  rw [write_eq]
  exact h.bind (.alter _ _)

theorem runs_write_refused {fault : DiskFault} (h : Runs (landing p) d (.error fault) d') (content : Blob) :
    Runs (Disk.write p content) d (.error fault) d' := by
  rw [write_eq]
  exact h.bind_fail

end Disk

end RecordCache
