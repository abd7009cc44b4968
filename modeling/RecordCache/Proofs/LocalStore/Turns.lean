import Mathlib.Data.List.Nodup
import RecordCache.Proofs.LocalStore.Changes

/-!
# Turns

Work on a store is done in turns, each of them with nothing else meanwhile. `Happens` is any order of turns.
What can be served afterwards is what the last turn said that concerned it, and the snapshot stays sound.
-/

namespace RecordCache.LocalStore

variable {s : LocalStore} {d d₁ d' : Disk} {id : String}

inductive Turn
  /-- A population replaces the snapshot. -/
  | replace (records : List Record)
  /-- A record of a batch is kept, or one that an update has changed. -/
  | keep (r : Record)
  | create (r : Record)
  | remove (id : String)
  /-- An update finds a record to change, or none. -/
  | look (id : String) (hit : Bool)
  | elapse (seconds : Float)

namespace Turn

/-- What the turn says of the record under an id, if it concerns it: the record that is there now, or none. -/
def record? (id : String) : Turn → Option (Option Record)
  | replace records => (records.reverse.find? fun r => r.objectId? = some id).map some
  | keep r | create r => if r.objectId? = some id then some (some r) else none
  | remove other => if other = id then some none else none
  | look .. | elapse _ => none

/-- Whether the turn puts an id into the index or takes it out, if it does either. -/
def lists? (id : String) : Turn → Option Bool
  | replace records => some (records.any fun r => r.objectId? = some id)
  | create r => if r.objectId? = some id then some true else none
  | remove other => if other = id then some false else none
  | keep _ | look .. | elapse _ => none

def replaces : Turn → Bool
  | replace _ => true
  | _ => false

/-- What the index lists after the turn. -/
def listedAfter (ids : Option (List String)) : Turn → Option (List String)
  | replace records => some (records.filterMap Record.objectId?)
  | create r => ids.map fun ids => r.objectId?.elim ids fun id => if id ∈ ids then ids else ids ++ [id]
  | remove id => ids.map (·.erase id)
  | keep _ | look .. | elapse _ => ids

/-- What the store is given are records that can be kept, and names that the disk bears. -/
def Accepted (s : LocalStore) (d : Disk) : Turn → Prop
  | replace records => ∃ ids : List String, s.Accepts d records ∧ records.map Record.objectId? = ids.map some ∧
      ids.Nodup ∧ ".list" ∉ ids
  | keep r | create r => ∃ id, s.Keepable d id r
  | remove id => d.Bears s.className id ∧ id ≠ ".list"
  | look id _ => d.Bears s.className id ∧ id ≠ ".list"
  | elapse _ => True

theorem Accepted.mono {t : Turn} (h : t.Accepted s d)
    (hBears : ∀ key, d.Bears s.className key → d'.Bears s.className key) : t.Accepted s d' := by
  have hKeepable {r : Record} (hr : ∃ id, s.Keepable d id r) : ∃ id, s.Keepable d' id r := by
    obtain ⟨id, hr⟩ := hr
    exact ⟨id, hr.document, hr.objectId, hBears id hr.bears, hr.apart⟩
  cases t with
  | replace records =>
    obtain ⟨ids, hRecords, hRest⟩ := h
    refine ⟨ids, fun r hr => ?_, hRest⟩
    obtain ⟨hDocument, id, hId, hName⟩ := hRecords r hr
    exact ⟨hDocument, id, hId, hBears id hName⟩
  | keep r => exact hKeepable h
  | create r => exact hKeepable h
  | remove id => exact ⟨hBears id h.1, h.2⟩
  | look id hit => exact ⟨hBears id h.1, h.2⟩
  | elapse seconds => trivial

end Turn

variable {t : Turn} {turns : List Turn}

/-- The turn leaves another disk. Time passes as long as nothing gets too old meanwhile. -/
def Takes (s : LocalStore) (d : Disk) : Turn → Disk → Prop
  | .replace records, d' => Runs (s.swap records) d (.ok ()) d'
  | .keep r, d' => Runs (s.persist r false) d (.ok ()) d'
  | .create r, d' => Runs (s.persist r true) d (.ok ()) d'
  | .remove id, d' => Runs (s.remove (.string id)) d (.ok ()) d'
  | .look id hit, d' =>
    ∃ found, Runs (whenServed (s.get (.string id))) d (.ok found) d' ∧ found.isSome = hit
  | .elapse seconds, d' => d' = d.advance seconds ∧ s.Ready d' ∧ ∀ key, s.Stays d d' key

/-- Turns that are taken one after another. -/
inductive Happens (s : LocalStore) : Disk → List Turn → Disk → Prop
  | nil (d : Disk) : Happens s d [] d
  | cons {d d₁ d' : Disk} {t : Turn} {turns : List Turn} (h : s.Takes d t d₁)
      (hRest : Happens s d₁ turns d') : Happens s d (t :: turns) d'

/-! ### One turn -/

theorem filterMap_objectId? {records : List Record} {ids : List String}
    (h : records.map Record.objectId? = ids.map some) : records.filterMap Record.objectId? = ids := by
  have hMap := congrArg (List.filterMap id) h
  simpa [List.filterMap_map] using hMap

/-- A turn that is accepted is taken, unless it is the time that passes. -/
theorem exists_takes (h : s.Ready d) (ht : t.Accepted s d)
    (hTime : ∀ seconds, t ≠ .elapse seconds) (hLook : ∀ id hit, t = .look id hit → (s.found? d id).isSome = hit) :
    ∃ d', s.Takes d t d' ∧
      s.Leaves d d' (t.listedAfter (s.listed? d)) fun id => (t.record? id).getD (s.found? d id) := by
  have hKept {r : Record} {own : String} (hId : r.objectId? = some own) (id : String) :
      (if id = own then some r else s.found? d id) =
        (if r.objectId? = some id then some (some r) else none).getD (s.found? d id) := by
    rw [hId]
    by_cases hSame : id = own
    · simp [hSame]
    · simp [hSame, Ne.symm hSame]
  cases t with
  | replace records =>
    obtain ⟨ids, hRecords, hIds, hNodup, -⟩ := ht
    obtain ⟨d', hRun, hLeaves⟩ := leaves_swap h hRecords hIds hNodup
    refine ⟨d', hRun, hLeaves.congr (congrArg some (filterMap_objectId? hIds).symm) fun id _ => ?_⟩
    rw [Turn.record?]
    cases records.reverse.find? fun r => r.objectId? = some id <;> rfl
  | keep r =>
    obtain ⟨own, hr⟩ := ht
    obtain ⟨d', hRun, hLeaves⟩ := leaves_keep h hr
    exact ⟨d', hRun, hLeaves.congr rfl fun id _ => hKept hr.objectId id⟩
  | create r =>
    obtain ⟨own, hr⟩ := ht
    obtain ⟨d', hRun, hLeaves⟩ := leaves_create h hr
    refine ⟨d', hRun, hLeaves.congr ?_ fun id _ => hKept hr.objectId id⟩
    rw [Turn.listedAfter, hr.objectId]
    rfl
  | remove other =>
    obtain ⟨d', hRun, hLeaves⟩ := leaves_remove h ht.1 ht.2
    refine ⟨d', hRun, hLeaves.congr rfl fun id _ => ?_⟩
    rw [Turn.record?]
    by_cases hSame : id = other
    · simp [hSame]
    · simp [hSame, Ne.symm hSame]
  | look id hit =>
    obtain ⟨d', hRun, hLeaves⟩ := leaves_look h ht.1
    exact ⟨d', ⟨_, hRun, hLook id hit rfl⟩, hLeaves⟩
  | elapse seconds => exact absurd rfl (hTime seconds)

theorem Takes.unique {d'' : Disk} (h : s.Takes d t d') (h' : s.Takes d t d'') : d' = d'' := by
  cases t with
  | replace _ | keep _ | create _ | remove _ => exact (Runs.unique h h').2
  | look id hit =>
    obtain ⟨found, hRun, -⟩ := h
    obtain ⟨found', hRun', -⟩ := h'
    exact (hRun.unique hRun').2
  | elapse _ => exact h.1.trans h'.1.symm

theorem Takes.hit_eq {hit : Bool} (hTakes : s.Takes d (.look id hit) d') (h : s.Ready d)
    (hBears : d.Bears s.className id) : (s.found? d id).isSome = hit := by
  obtain ⟨found, hRun, hFound⟩ := hTakes
  obtain ⟨_, hLook, -⟩ := leaves_look h hBears
  rw [← Except.ok.inj (hRun.unique hLook).1]
  exact hFound

theorem Takes.leaves (hTakes : s.Takes d t d') (h : s.Ready d) (ht : t.Accepted s d) :
    s.Leaves d d' (t.listedAfter (s.listed? d)) fun id => (t.record? id).getD (s.found? d id) := by
  by_cases hTime : ∃ seconds, t = .elapse seconds
  · obtain ⟨seconds, rfl⟩ := hTime
    obtain ⟨rfl, hReady, hStays⟩ := hTakes
    exact ⟨hReady, fun key hBears => hBears.of_same rfl rfl rfl, (hStays _).listed?_eq,
      fun id _ => (hStays id).found?_eq⟩
  · obtain ⟨d'', hTaken, hLeaves⟩ := exists_takes h ht (fun seconds hSame => hTime ⟨seconds, hSame⟩)
      fun id hit hSame => by
        subst hSame
        exact hTakes.hit_eq h ht.1
    cases hTakes.unique hTaken
    exact hLeaves

/-! ### Many turns -/

/-- The last thing that turns say. -/
def last {α : Type} (about : Turn → Option α) (turns : List Turn) : Option α := turns.reverse.findSome? about

theorem last_cons {α : Type} (about : Turn → Option α) (t : Turn) (turns : List Turn) :
    last about (t :: turns) = (last about turns).or (about t) := by
  simp [last, List.findSome?_append]

theorem last_eq_none_iff {α : Type} {about : Turn → Option α} :
    last about turns = none ↔ ∀ t ∈ turns, about t = none := by
  simp [last, List.findSome?_eq_none_iff]

/-! ### The index -/

/-- The id is among those that can be listed. -/
def Lists (ids : Option (List String)) (id : String) : Prop := ∃ listed, ids = some listed ∧ id ∈ listed

variable {ids : Option (List String)}

theorem isSome_listedAfter (t : Turn) (ids : Option (List String)) :
    (t.listedAfter ids).isSome = (t.replaces || ids.isSome) := by
  cases t <;> simp [Turn.listedAfter, Turn.replaces]

namespace Turn.Accepted

theorem nodup (ht : t.Accepted s d) (h : ∀ listed, ids = some listed → listed.Nodup) :
    ∀ listed, t.listedAfter ids = some listed → listed.Nodup := by
  intro listed hListed
  cases t with
  | replace records =>
    obtain ⟨own, -, hIds, hNodup, -⟩ := ht
    cases hListed
    rwa [filterMap_objectId? hIds]
  | create r =>
    obtain ⟨own, hr⟩ := ht
    obtain ⟨old, hOld, rfl⟩ := Option.map_eq_some_iff.mp hListed
    rw [hr.objectId, Option.elim_some]
    split
    · exact h old hOld
    · next hNew =>
      refine List.nodup_append.mpr ⟨h old hOld, List.nodup_singleton own, fun id hId other hOther => ?_⟩
      rw [List.mem_singleton.mp hOther]
      exact ne_of_mem_of_not_mem hId hNew
  | remove other =>
    obtain ⟨old, hOld, rfl⟩ := Option.map_eq_some_iff.mp hListed
    exact (h old hOld).erase other
  | keep _ | look _ _ | elapse _ => exact h listed hListed

theorem lists_iff (ht : t.Accepted s d) (h : ∀ listed, ids = some listed → listed.Nodup) (id : String) :
    Lists (t.listedAfter ids) id ↔
      (t.listedAfter ids).isSome ∧ (t.lists? id = some true ∨ t.lists? id = none ∧ Lists ids id) := by
  cases t with
  | replace records => simp [Lists, listedAfter, lists?]
  | create r =>
    obtain ⟨own, hr⟩ := ht
    simp only [listedAfter, lists?, hr.objectId, Lists]
    cases ids with
    | none => simp
    | some listed =>
      by_cases hOwn : own = id
      · by_cases hMem : own ∈ listed <;> simp_all
      · by_cases hMem : own ∈ listed <;> simp [hOwn, hMem, Ne.symm hOwn]
  | remove other =>
    cases ids with
    | none => simp [Lists, listedAfter]
    | some listed =>
      by_cases hOther : other = id
      · simp [Lists, listedAfter, lists?, hOther, (h listed rfl).mem_erase_iff]
      · simp [Lists, listedAfter, lists?, hOther, Ne.symm hOther, (h listed rfl).mem_erase_iff]
  | keep _ | look _ _ | elapse _ => cases ids <;> simp [Lists, listedAfter, lists?]

/-- An id that is listed after a turn is that of a record that the turn brings, or the turn does not
concern it. -/
theorem record?_of_lists (ht : t.Accepted s d) (h : ∀ listed, ids = some listed → listed.Nodup)
    (hLists : Lists (t.listedAfter ids) id) :
    (∃ r, t.record? id = some (some r) ∧ s.Keepable d id r) ∨ t.record? id = none ∧ Lists ids id := by
  have hKept {r : Record} {own : String} (hr : s.Keepable d own r) (hOther : own ≠ id → Lists ids id) :
      (∃ kept, (if r.objectId? = some id then some (some r) else none) = some (some kept) ∧
          s.Keepable d id kept) ∨
        (if r.objectId? = some id then some (some r) else none) = none ∧ Lists ids id := by
    rw [hr.objectId]
    by_cases hOwn : own = id
    · subst hOwn
      exact .inl ⟨r, if_pos rfl, hr⟩
    · exact .inr ⟨if_neg fun hSame => hOwn (Option.some.inj hSame), hOther hOwn⟩
  cases t with
  | replace records =>
    obtain ⟨own, hRecords, hIds, -, hList⟩ := ht
    obtain ⟨listed, hListed, hMem⟩ := hLists
    cases hListed
    obtain ⟨r, hr, hId⟩ := List.mem_filterMap.mp hMem
    cases hFound : records.reverse.find? fun r => r.objectId? = some id with
    | none =>
      have hNone := List.find?_eq_none.mp hFound r (List.mem_reverse.mpr hr)
      simp [hId] at hNone
    | some found =>
      have hFoundId : found.objectId? = some id := by simpa using List.find?_some hFound
      obtain ⟨hDocument, id', hId', hBears⟩ :=
        hRecords found (List.mem_reverse.mp (List.mem_of_find?_eq_some hFound))
      cases hFoundId.symm.trans hId'
      rw [filterMap_objectId? hIds] at hMem
      exact .inl ⟨found, by rw [record?, hFound, Option.map_some],
        hDocument, hFoundId, hBears, ne_of_mem_of_not_mem hMem hList⟩
  | keep r =>
    obtain ⟨own, hr⟩ := ht
    exact hKept hr fun _ => hLists
  | create r =>
    obtain ⟨own, hr⟩ := ht
    refine hKept hr fun hOwn => ?_
    obtain ⟨listed, hListed, hMem⟩ := hLists
    obtain ⟨old, hOld, rfl⟩ := Option.map_eq_some_iff.mp hListed
    refine ⟨old, hOld, ?_⟩
    rw [hr.objectId, Option.elim_some] at hMem
    split at hMem
    · exact hMem
    · simpa [Ne.symm hOwn] using hMem
  | remove other =>
    obtain ⟨listed, hListed, hMem⟩ := hLists
    obtain ⟨old, hOld, rfl⟩ := Option.map_eq_some_iff.mp hListed
    obtain ⟨hOther, hMem⟩ := (h old hOld).mem_erase_iff.mp hMem
    exact .inr ⟨if_neg (Ne.symm hOther), old, hOld, hMem⟩
  | look _ _ | elapse _ => exact .inr ⟨rfl, hLists⟩

end Turn.Accepted

/-! ### Many turns -/

/-- Every listed record can be served, under the id that it is listed by. -/
structure Sound (s : LocalStore) (d : Disk) : Prop where
  nodup : ∀ listed, s.listed? d = some listed → listed.Nodup
  serves : ∀ id, Lists (s.listed? d) id →
    d.Bears s.className id ∧ id ≠ ".list" ∧ ∃ r, s.found? d id = some r ∧ r.objectId? = some id

theorem Sound.takes (h : s.Sound d) (hTakes : s.Takes d t d') (hReady : s.Ready d) (ht : t.Accepted s d) :
    s.Sound d' := by
  have hLeaves := hTakes.leaves hReady ht
  constructor
  · rw [hLeaves.ids]
    exact ht.nodup h.nodup
  · intro id hLists
    rw [hLeaves.ids] at hLists
    rcases ht.record?_of_lists h.nodup hLists with ⟨r, hRecord, hr⟩ | ⟨hOther, hListed⟩
    · refine ⟨hLeaves.bears id hr.bears, hr.apart, r, ?_, hr.objectId⟩
      rw [hLeaves.records id hr.apart, hRecord, Option.getD_some]
    · obtain ⟨hBears, hApart, hServes⟩ := h.serves id hListed
      refine ⟨hLeaves.bears id hBears, hApart, ?_⟩
      rw [hLeaves.records id hApart, hOther, Option.getD_none]
      exact hServes

/-- What can be served after many turns. -/
structure Shows (s : LocalStore) (d : Disk) (turns : List Turn) (d' : Disk) : Prop where
  ready : s.Ready d'
  sound : s.Sound d'
  bears : ∀ key, d.Bears s.className key → d'.Bears s.className key
  readable : (s.listed? d').isSome = (turns.any Turn.replaces || (s.listed? d).isSome)
  lists : ∀ id, Lists (s.listed? d') id ↔ (s.listed? d').isSome ∧
    (last (Turn.lists? id) turns = some true ∨ last (Turn.lists? id) turns = none ∧ Lists (s.listed? d) id)
  records : ∀ id, id ≠ ".list" → s.found? d' id = (last (Turn.record? id) turns).getD (s.found? d id)

theorem any_replaces_eq_false (h : last (Turn.lists? id) turns = none) : turns.any Turn.replaces = false := by
  rw [List.any_eq_false]
  intro t hMem
  have hNone := last_eq_none_iff.mp h t hMem
  cases t <;> simp_all [Turn.lists?, Turn.replaces]

theorem Happens.shows (hTurns : s.Happens d turns d') (h : s.Ready d) (hSound : s.Sound d)
    (ht : ∀ t ∈ turns, t.Accepted s d) : s.Shows d turns d' := by
  induction hTurns with
  | nil d =>
    refine ⟨h, hSound, fun _ hBears => hBears, rfl, fun id => ?_, fun _ _ => rfl⟩
    simp only [Lists, last]
    cases s.listed? d <;> simp
  | @cons d d₁ d' t turns hTakes hRest ih =>
    have hAccepted := ht t List.mem_cons_self
    have hFirst := hTakes.leaves h hAccepted
    have hRest := ih hFirst.ready (hSound.takes hTakes h hAccepted)
      fun t hMem => (ht t (List.mem_cons_of_mem _ hMem)).mono hFirst.bears
    refine ⟨hRest.ready, hRest.sound, fun key hBears => hRest.bears key (hFirst.bears key hBears), ?_,
      fun id => ?_, fun id hId => ?_⟩
    · rw [hRest.readable, hFirst.ids, isSome_listedAfter, List.any_cons, Bool.or_left_comm, Bool.or_assoc]
    · have hStep := hAccepted.lists_iff hSound.nodup id
      rw [hRest.lists, hFirst.ids, hStep, last_cons]
      cases hLast : last (Turn.lists? id) turns with
      | some listed => simp
      | none =>
        -- without another snapshot the index can be read only if it could be read before
        have hReadable := hRest.readable
        rw [any_replaces_eq_false hLast, Bool.false_or, hFirst.ids] at hReadable
        simp only [Option.none_or, reduceCtorEq, false_or, true_and, hReadable, and_self_left]
    · rw [hRest.records id hId, hFirst.records id hId, last_cons]
      cases last (Turn.record? id) turns <;> rfl

end RecordCache.LocalStore
