import RecordCache.Disk
import RecordCache.Proofs.Keyed
import RecordCache.Proofs.Runs
import RecordCache.Proofs.Text.Pieces

/-!
# Accesses to a disk

A disk bears a name under a class when a blob can be kept there: any text in memory and in a table, the
name of a file where blobs are files. Such names are kept apart, and an access to one of them does what it
says: `blob` is what is read, `written` and `removed` are the disks after a write and a removal. A failed
access is counted and changes nothing.
-/

namespace RecordCache

namespace Path

/-- A name that stands for one step of a way, and not for a step back. -/
structure Plain (name : String) : Prop where
  step : isFolderName name = false
  noSlash : '/' ∉ name.toList
  noNull : hasNull name = false

theorem Plain.startsWith_slash {name : String} (h : Plain name) : name.startsWith "/" = false := by
  have hText : ("/" : String).toList = ['/'] := rfl
  cases hStart : name.startsWith "/" with
  | false => rfl
  | true =>
    rw [String.startsWith_string_iff, hText] at hStart
    obtain ⟨rest, hRest⟩ := hStart
    exact absurd (hRest ▸ List.mem_cons_self) h.noSlash

theorem Plain.enter {name : String} (h : Plain name) (folder : Location) :
    Path.enter folder name = folder ++ [name] := by
  have hStep := h.step
  simp only [isFolderName, List.contains_cons, List.contains_nil, Bool.or_false, Bool.or_eq_false_iff,
    beq_eq_false_iff_ne, ne_eq] at hStep
  simp [Path.enter, hStep]

theorem spot_pair (space key : String) : spot [space, key] = ⟨"", .string (space ++ "/" ++ key)⟩ := rfl

theorem isLonger_eq_false {name : String} {octets : Nat} :
    isLonger name octets = false ↔ name.utf8ByteSize ≤ octets := by
  simp [isLonger]

theorem names_eq {space key : String} (hSpace : Plain space) (hKey : Plain key) :
    names space key = [space, key] := by
  have hText : (space ++ "/" ++ key).toList = space.toList ++ '/' :: key.toList := by
    simp [String.toList_append]
  rw [names, hKey.startsWith_slash, if_neg Bool.false_ne_true, Text.split, hText,
    Text.splitOn_append hSpace.noSlash, Text.splitOn_of_not_mem hKey.noSlash]
  simp

theorem start_eq {space key : String} (hSpace : Plain space) (hKey : Plain key) : start space key = [] := by
  simp [start, hSpace.startsWith_slash, hKey.startsWith_slash]

theorem hasNull_append {space key : String} (hSpace : Plain space) (hKey : Plain key) :
    hasNull (space ++ key) = false := by
  have hFirst := hSpace.noNull
  have hSecond := hKey.noNull
  simp only [hasNull, List.contains_eq_mem, decide_eq_false_iff_not] at hFirst hSecond ⊢
  simp [String.toList_append, hFirst, hSecond]

end Path

namespace Disk

variable {d : Disk} {space key other : String}

/-- The spot of a name that the disk bears. -/
def spotOf (d : Disk) (space key : String) : Spot :=
  match d.kind with
  | .files => Path.spot [space, key]
  | _ => ⟨space, .string key⟩

/-- The blob under a name. -/
def blob (d : Disk) (space key : String) : Option Stored := d.blobs.get? (d.spotOf space key)

/-- A blob in a file needs a folder of the class, a name that no folder has, and room for a longer name
while it is written. -/
structure BearsFile (d : Disk) (space key : String) : Prop where
  plainSpace : Path.Plain space
  plainKey : Path.Plain key
  spaceLength : Path.isLonger space Path.longestName = false
  keyLength : Path.isLonger key (Path.longestName - Path.writingSuffix) = false
  top : d.isFile [] = false
  folder : d.isFile [space] = false
  file : d.isFolder [space, key] = false
  inFolder : d.isFolder [space] = false → d.isFile [space, key] = false

/-- A blob can be kept under the name. -/
def Bears (d : Disk) (space key : String) : Prop := d.kind = .files → d.BearsFile space key

theorem bears_of_kind (h : d.kind ≠ .files) (space key : String) :
    d.Bears space key := fun hFiles => absurd hFiles h

theorem Bears.of_same {d' : Disk} (h : d.Bears space key) (hKind : d'.kind = d.kind)
    (hBlobs : d'.blobs = d.blobs)
    (hFolders : d'.folders = d.folders) : d'.Bears space key := by
  obtain ⟨kind, blobs, folders⟩ := d
  obtain ⟨kind', blobs', folders'⟩ := d'
  cases hKind
  cases hBlobs
  cases hFolders
  intro hFiles
  obtain ⟨hPlainSpace, hPlainKey, hSpaceLength, hKeyLength, hTop, hFolder, hFile, hInFolder⟩ := h hFiles
  exact ⟨hPlainSpace, hPlainKey, hSpaceLength, hKeyLength, hTop, hFolder, hFile, hInFolder⟩

def counted (d : Disk) : Disk := { d with accesses := d.accesses + 1 }

/-- The folders, with the one of a class where blobs need it. -/
def foldersWith (d : Disk) (space : String) : List Path.Location :=
  match d.kind with
  | .files => if d.isFolder [space] || d.isFile [space] then d.folders else d.folders ++ [[space]]
  | _ => d.folders

/-- The disk after a write. -/
def written (d : Disk) (space key : String) (content : Blob) : Disk :=
  { d with
    blobs := d.blobs.set (d.spotOf space key) ⟨content, d.stamp⟩
    folders := d.foldersWith space
    room := d.room.map (· - 1)
    accesses := d.accesses + 1 }

/-- The disk after a removal. -/
def removed (d : Disk) (space key : String) : Disk :=
  { d with blobs := d.blobs.erase (d.spotOf space key), accesses := d.accesses + 1 }

/-- No access of this kind fails. -/
def Obeys (d : Disk) (a : Access) : Prop := ∀ n, d.fails a n = false

theorem spotOf_injective (h : d.spotOf space key = d.spotOf space other) : key = other := by
  rw [spotOf, spotOf] at h
  split at h
  · rw [Path.spot_pair, Path.spot_pair, Spot.mk.injEq, Scalar.string.injEq] at h
    have hText := congrArg String.toList h.2
    simp only [String.toList_append, List.append_cancel_left_eq] at hText
    exact String.toList_inj.mp hText
  · simpa using h

theorem memorySpot_eq (d : Disk) (space key : String) :
    d.memorySpot ⟨space, .string key⟩ = .ok ⟨space, .string key⟩ := by
  rw [memorySpot, if_neg (by simp [Json.isScalar])]
  change Except.ok (Option.getD
    (List.find? (fun s => s.space = space && s.key.sameKey (.string key)) d.blobs.keys)
    ⟨space, .string key⟩) = _
  cases hFound : d.blobs.keys.find? fun s => s.space = space && s.key.sameKey (.string key) with
  | none => rfl
  | some found =>
    have hLike := List.find?_some hFound
    rw [Bool.and_eq_true, decide_eq_true_iff, Scalar.sameKey_string, beq_iff_eq] at hLike
    obtain ⟨hSpace, hName⟩ := hLike
    obtain ⟨foundSpace, foundKey⟩ := found
    subst hSpace hName
    rfl

theorem follow_eq (h : d.BearsFile space key) :
    d.follow [] [space, key] = .ok (if d.isFolder [space] then some [space, key] else none) := by
  have hTop : d.isFolder [] = true := by simp [isFolder]
  have hKeyLength : Path.isLonger key Path.longestName = false := by
    have hShort := Path.isLonger_eq_false.mp h.keyLength
    exact Path.isLonger_eq_false.mpr (Nat.le_trans hShort (Nat.sub_le ..))
  rw [follow, h.top, hTop, h.spaceLength, h.plainSpace.enter, List.nil_append]
  simp only [Bool.false_eq_true, if_false, Bool.not_true]
  rw [follow, h.folder, hKeyLength, h.plainKey.enter]
  cases d.isFolder [space] <;> simp [follow]

theorem file?_eq (h : d.BearsFile space key) :
    d.file? space key = .ok (if d.isFile [space, key] then some (Path.spot [space, key]) else none) := by
  have hLength : Path.isLonger (space ++ key) Path.longestWay = false := by
    have hSpace := Path.isLonger_eq_false.mp h.spaceLength
    have hKey := Path.isLonger_eq_false.mp h.keyLength
    rw [Path.isLonger_eq_false, String.utf8ByteSize_append]
    simp only [Path.longestName, Path.writingSuffix, Path.longestWay] at hSpace hKey ⊢
    omega
  rw [file?, Path.hasNull_append h.plainSpace h.plainKey, hLength, Path.start_eq h.plainSpace h.plainKey,
    Path.names_eq h.plainSpace h.plainKey, follow_eq h]
  cases hFolder : d.isFolder [space] with
  | true =>
      cases hFile : d.isFile [space, key] <;> simp [h.file, hFile, pure, Except.pure, bind, Except.bind]
  | false => simp [h.inFolder hFolder, pure, Except.pure, bind, Except.bind]

theorem locate_eq (h : d.Bears space key) :
    d.locate ⟨space, .string key⟩ = .ok (some (d.spotOf space key)) ∨
      d.locate ⟨space, .string key⟩ = .ok none ∧ d.blob space key = none := by
  rw [locate, blob, spotOf]
  cases hKind : d.kind with
  | memory =>
    left
    simp only [memorySpot_eq]
    rfl
  | table => exact .inl rfl
  | files =>
    simp only
    rw [file?_eq (h hKind)]
    cases hFile : d.isFile [space, key] with
    | true => exact .inl rfl
    | false => exact .inr ⟨rfl, by simpa [isFile, Assoc.contains] using hFile⟩

theorem addFolder_eq (hKind : d.kind = .files) (space : String) :
    d.addFolder [space] = { d with folders := d.foldersWith space } := by
  obtain ⟨kind, blobs, folders⟩ := d
  cases hKind
  rw [addFolder, foldersWith]
  split <;> rfl

theorem runs_makeWay (h : d.BearsFile space key) :
    Runs (makeWay [] [space]) d (.ok [space]) (d.addFolder [space]) := by
  have hFolder : (d.addFolder [space]).isFile [space] = false := by
    rw [addFolder]
    split <;> exact h.folder
  rw [makeWay]
  simp only [h.plainSpace.noNull, Bool.false_eq_true, if_false]
  refine .bind (.state d) ?_
  simp only [h.top, h.spaceLength, h.plainSpace.enter, Bool.or_false, Bool.false_eq_true, if_false]
  refine .bind (.alter _ _) ?_
  rw [List.nil_append, makeWay]
  refine .bind (.state _) ?_
  rw [hFolder]
  exact .ret _ _

theorem runs_fileToWrite (h : d.BearsFile space key) :
    Runs (fileToWrite space key) d (.ok (Path.spot [space, key])) (d.addFolder [space]) := by
  have hLength : Path.isLonger (space ++ key) (Path.longestWay - Path.writingSuffix) = false := by
    have hSpace := Path.isLonger_eq_false.mp h.spaceLength
    have hKey := Path.isLonger_eq_false.mp h.keyLength
    rw [Path.isLonger_eq_false, String.utf8ByteSize_append]
    simp only [Path.longestName, Path.writingSuffix, Path.longestWay] at hSpace hKey ⊢
    omega
  have hFolder : (d.addFolder [space]).isFolder [space, key] = false := by
    have hFile := h.file
    rw [addFolder]
    split
    · exact hFile
    · simpa [isFolder] using hFile
  have hLast : [space, key].getLastD "" = key := rfl
  rw [fileToWrite, hLength, Path.names_eq h.plainSpace h.plainKey, Path.start_eq h.plainSpace h.plainKey]
  simp only [Bool.false_eq_true, if_false, hLast]
  refine .bind (runs_makeWay h) ?_
  simp only [h.plainKey.noNull, h.plainKey.enter, Bool.false_eq_true, if_false]
  refine .bind (.state _) ?_
  rw [List.singleton_append, h.plainKey.step, h.keyLength, hFolder]
  exact .ret _ _

theorem runs_prepare (h : d.Bears space key) :
    Runs (prepare ⟨space, .string key⟩) d (.ok (d.spotOf space key))
      { d with folders := d.foldersWith space } := by
  have hWhole := h
  obtain ⟨kind, blobs, folders⟩ := d
  rw [prepare]
  refine .bind (.state _) ?_
  cases kind with
  | memory =>
    simp only [memorySpot_eq]
    exact .ofExcept _ _
  | table => exact .ret _ _
  | files =>
    rw [← addFolder_eq rfl]
    exact runs_fileToWrite (hWhole rfl)

/-! ### Runs -/

theorem runs_attempt (a : Access) (d : Disk) :
    Runs (ExceptT.lift (attempt a) : DiskWork Bool) d (.ok (d.fails a d.accesses)) d.counted := rfl

theorem runs_read (h : d.Bears space key) (hReads : d.fails .read d.accesses = false) :
    Runs (Disk.read ⟨space, .string key⟩) d (.ok (d.blob space key)) d.counted := by
  have hBears : d.counted.Bears space key := h.of_same rfl rfl rfl
  rw [Disk.read]
  refine .bind (runs_attempt .read d) ?_
  simp only [hReads, Bool.false_eq_true, if_false]
  refine .bind (.state _) ?_
  rcases locate_eq hBears with hFound | ⟨hNone, hBlob⟩
  · rw [hFound]
    exact .bind (.ofExcept _ _) (.ret _ _)
  · rw [hNone]
    have hEmpty : d.blob space key = none := hBlob
    rw [hEmpty]
    exact .bind (.ofExcept _ _) (.ret _ _)

theorem runs_read_fails (p : Place) (h : d.fails .read d.accesses = true) :
    Runs (Disk.read p) d (.error .read) d.counted := by
  rw [Disk.read]
  refine .bind (runs_attempt .read d) ?_
  simp only [h, if_true]
  exact .bind_fail (.fail _ _)

theorem runs_write (h : d.Bears space key) (content : Blob) (hWrites : d.fails .write d.accesses = false)
    (hRoom : d.room ≠ some 0) :
    Runs (Disk.write ⟨space, .string key⟩ content) d (.ok ()) (d.written space key content) := by
  rw [Disk.write]
  refine .bind (runs_attempt .write d) (.bind (.state _) ?_)
  have hGoes : (d.fails .write d.accesses || decide (d.counted.room = some 0)) = false := by
    rw [hWrites, Bool.false_or, decide_eq_false_iff_not]
    exact hRoom
  simp only [hGoes, Bool.false_eq_true, if_false]
  have hBears : d.counted.Bears space key := h.of_same rfl rfl rfl
  refine .bind (runs_prepare hBears) ?_
  exact .alter _ _

theorem runs_write_fails (p : Place) (content : Blob)
    (h : d.fails .write d.accesses = true ∨ d.room = some 0) :
    Runs (Disk.write p content) d (.error .write) d.counted := by
  rw [Disk.write]
  refine .bind (runs_attempt .write d) (.bind (.state _) ?_)
  have hStops : (d.fails .write d.accesses || decide (d.counted.room = some 0)) = true := by
    rw [Bool.or_eq_true, decide_eq_true_iff]
    exact h
  simp only [hStops, if_true]
  exact .bind_fail (.fail _ _)

theorem runs_remove (h : d.Bears space key) (hRemoves : d.fails .remove d.accesses = false) :
    Runs (Disk.remove ⟨space, .string key⟩) d (.ok ()) (d.removed space key) := by
  have hBears : d.counted.Bears space key := h.of_same rfl rfl rfl
  rw [Disk.remove]
  refine .bind (runs_attempt .remove d) ?_
  simp only [hRemoves, Bool.false_eq_true, if_false]
  refine .bind (.state _) ?_
  rcases locate_eq hBears with hFound | ⟨hNone, hBlob⟩
  · rw [hFound]
    exact .bind (.ofExcept _ _) (.alter _ _)
  · have hEmpty : d.blob space key = none := hBlob
    rw [hNone, removed, Assoc.erase_of_get?_eq_none hEmpty]
    exact .bind (.ofExcept _ _) (.ret _ _)

theorem runs_remove_fails (p : Place) (h : d.fails .remove d.accesses = true) :
    Runs (Disk.remove p) d (.error .remove) d.counted := by
  rw [Disk.remove]
  refine .bind (runs_attempt .remove d) ?_
  simp only [h, if_true]
  exact .bind_fail (.fail _ _)

/-! ### What is left -/

@[simp] theorem blob_written (d : Disk) (space key other : String) (content : Blob) :
    (d.written space key content).blob space other =
      if key = other then some ⟨content, d.stamp⟩ else d.blob space other := by
  have hSpot : (d.written space key content).spotOf space other = d.spotOf space other := rfl
  rw [blob, hSpot, written, Assoc.get?_set]
  by_cases hKey : key = other
  · rw [if_pos hKey, if_pos (congrArg _ hKey)]
  · rw [if_neg hKey, if_neg fun h => hKey (spotOf_injective h)]
    rfl

@[simp] theorem blob_removed (d : Disk) (space key other : String) :
    (d.removed space key).blob space other = if key = other then none else d.blob space other := by
  have hSpot : (d.removed space key).spotOf space other = d.spotOf space other := rfl
  rw [blob, hSpot, removed, Assoc.get?_erase]
  by_cases hKey : key = other
  · rw [if_pos hKey, if_pos (congrArg _ hKey)]
  · rw [if_neg hKey, if_neg fun h => hKey (spotOf_injective h)]
    rfl

theorem Bears.counted (h : d.Bears space key) : d.counted.Bears space key := h.of_same rfl rfl rfl

theorem spot_ne_of_plain (key : String) (hSpace : Path.Plain space) :
    Path.spot [space, key] ≠ Path.spot [] ∧ Path.spot [space, key] ≠ Path.spot [space] := by
  have hMem : '/' ∈ (space ++ "/" ++ key).toList := by simp [String.toList_append]
  constructor
  · intro h
    rw [Path.spot_pair, Path.spot, Spot.mk.injEq, Scalar.string.injEq] at h
    rw [h.2] at hMem
    exact absurd hMem (by decide)
  · intro h
    rw [Path.spot_pair, Path.spot, Spot.mk.injEq, Scalar.string.injEq] at h
    rw [h.2] at hMem
    exact hSpace.noSlash hMem

theorem isFile_written (hKind : d.kind = .files) (space key : String) (content : Blob)
    (location : Path.Location) :
    (d.written space key content).isFile location =
      (d.isFile location || decide (Path.spot [space, key] = Path.spot location)) := by
  have hSpot : d.spotOf space key = Path.spot [space, key] := by rw [spotOf, hKind]
  rw [isFile, isFile, written, hSpot, Assoc.contains, Assoc.get?_set, Assoc.contains]
  by_cases hSame : Path.spot [space, key] = Path.spot location <;> simp [hSame]

theorem isFolder_written (hKind : d.kind = .files) {space : String} (hFolder : d.isFile [space] = false)
    (key : String) (content : Blob) (location : Path.Location) :
    (d.written space key content).isFolder location =
      (d.isFolder location || decide (location = [space])) := by
  have hFolders : (d.written space key content).folders =
      if d.isFolder [space] then d.folders else d.folders ++ [[space]] := by
    rw [written, foldersWith, hKind]
    simp only [hFolder, Bool.or_false]
  rw [isFolder, isFolder, hFolders]
  by_cases hThere : d.isFolder [space] = true
  · rw [if_pos hThere]
    by_cases hSame : location = [space]
    · subst hSame
      rw [isFolder] at hThere
      rw [hThere]
      rfl
    · simp [hSame]
  · rw [if_neg hThere]
    by_cases hSame : location = [space] <;> simp [hSame]

theorem Bears.written (h : d.Bears space other) (content : Blob) :
    (d.written space key content).Bears space other := by
  intro hKind
  have hFiles : d.kind = .files := hKind
  obtain ⟨hPlainSpace, hPlainKey, hSpaceLength, hKeyLength, hTop, hFolder, hFile, hInFolder⟩ := h hFiles
  obtain ⟨hNotTop, hNotFolder⟩ := spot_ne_of_plain key hPlainSpace
  refine ⟨hPlainSpace, hPlainKey, hSpaceLength, hKeyLength, ?_, ?_, ?_, fun hMissing => ?_⟩
  · rw [isFile_written hFiles, hTop, decide_eq_false hNotTop, Bool.or_false]
  · rw [isFile_written hFiles, hFolder, decide_eq_false hNotFolder, Bool.or_false]
  · rw [isFolder_written hFiles hFolder, hFile]
    simp
  · rw [isFolder_written hFiles hFolder] at hMissing
    simp at hMissing

theorem isFile_removed (space key : String) {location : Path.Location} (h : d.isFile location = false) :
    (d.removed space key).isFile location = false := by
  rw [isFile, Assoc.contains, Option.isSome_eq_false_iff, Option.isNone_iff_eq_none] at h ⊢
  rw [removed, Assoc.get?_erase, h, ite_self]

theorem Bears.removed (h : d.Bears space other) (key : String) :
    (d.removed space key).Bears space other := by
  intro hKind
  obtain ⟨hPlainSpace, hPlainKey, hSpaceLength, hKeyLength, hTop, hFolder, hFile, hInFolder⟩ := h hKind
  exact ⟨hPlainSpace, hPlainKey, hSpaceLength, hKeyLength, isFile_removed space key hTop,
    isFile_removed space key hFolder, hFile, fun hMissing => isFile_removed space key (hInFolder hMissing)⟩

end Disk

end RecordCache
