import Mathlib.Data.List.Induction
import RecordCache.Proofs.Client.Renewal

/-!
# Reading one's own writes

What a client writes goes to the cache of the class as the class's own store sees it then: a save is listed only where
that store can read the index, and an update changes only a record that it can serve. A query may look at the same
blobs with a longer window. It sees the writes of the client exactly when each of them has reached the cache, or makes
no difference.
-/

namespace RecordCache

namespace LocalStore

variable {s : LocalStore} {entries before after : List Entry} {e : Entry} {l : Ledger} {id : String}

/-- What is known of an object, and what is known of it then. -/
def Deed.makes (id : String) (known : Option Record) : Deed → Option Record
  | populate records => records.reverse.find? fun r => r.objectId? = some id
  | receive records => (records.reverse.find? fun r => r.objectId? = some id).or known
  | save r => if r.objectId? = some id then some r else known
  | update other change => if other = id then known.map change else known
  | delete other => if other = id then none else known

/-- The object as it is to be after all that was done, whatever was too old for whom. -/
def intended (entries : List Entry) (id : String) : Option Record :=
  entries.foldl (fun known e => e.deed.makes id known) none

/-- What is done reaches the cache if the class has a store, and an update if that can serve the record. -/
def Entry.reaches (e : Entry) (l : Ledger) : Bool :=
  match e.store, e.deed with
  | none, _ => false
  | some s, .update id _ => (l.found? s e.now id).isSome
  | some _, _ => true

def Ledger.reachedFrom (l : Ledger) : List Entry → List Entry
  | [] => []
  | e :: rest => if e.reaches l then e :: reachedFrom (l.enter e) rest else reachedFrom (l.enter e) rest

def reached (entries : List Entry) : List Entry := Ledger.reachedFrom {} entries

theorem Ledger.reachedFrom_append (l : Ledger) (entries more : List Entry) :
    l.reachedFrom (entries ++ more) = l.reachedFrom entries ++ (entries.foldl enter l).reachedFrom more := by
  induction entries generalizing l with
  | nil => rfl
  | cons e rest ih =>
    rw [List.cons_append, reachedFrom, reachedFrom, ih]
    split <;> rfl

theorem intended_concat (entries : List Entry) (e : Entry) (id : String) :
    intended (entries ++ [e]) id = e.deed.makes id (intended entries id) := List.foldl_concat ..

theorem intended_reached_concat (entries : List Entry) (e : Entry) (id : String) :
    intended (reached (entries ++ [e])) id =
      if e.reaches (Ledger.ofEntries entries) then e.deed.makes id (intended (reached entries) id)
      else intended (reached entries) id := by
  have hReached : reached (entries ++ [e]) =
      reached entries ++ if e.reaches (Ledger.ofEntries entries) then [e] else [] :=
    Ledger.reachedFrom_append {} entries [e]
  rw [hReached]
  split
  · exact intended_concat ..
  · rw [List.append_nil]

namespace Ledger

/-- The record of a listed object is what the entries that have reached the cache make it. -/
theorem Kept.record_eq (h : Kept entries) (hLists : (ofEntries entries).Lists id) :
    ((ofEntries entries).record id).map Dated.value = intended (reached entries) id := by
  -- on the last entry; an update is the case that depends on what the ledger can still serve
  induction h with
  | nil =>
    obtain ⟨k, hIndex, -⟩ := hLists
    cases hIndex
  | @concat entries e _ hKeeps ih =>
    rw [intended_reached_concat]
    rw [ofEntries_concat] at hLists ⊢
    obtain ⟨store, now, stamp, deed⟩ := e
    cases store with
    | none => exact ih hLists
    | some s =>
      cases deed with
      | populate records =>
        obtain ⟨r, hr, hId⟩ := lists_enter_populate.mp hLists
        obtain ⟨last, hLast⟩ : ∃ last, (records.reverse.find? fun r => r.objectId? = some id) = some last :=
          Option.isSome_iff_exists.mp (List.find?_isSome.mpr ⟨r, List.mem_reverse.mpr hr, by simpa using hId⟩)
        rw [record_enter_populate, hLast]
        exact hLast.symm
      | receive records =>
        rw [record_enter_receive]
        have hOld := ih ((lists_congr index_enter_receive).mp hLists)
        change _ = (records.reverse.find? fun r => r.objectId? = some id).or (intended (reached entries) id)
        rw [← hOld]
        cases records.reverse.find? fun r => r.objectId? = some id <;> rfl
      | save r =>
        rw [record_enter_save]
        change _ = if r.objectId? = some id then some r else intended (reached entries) id
        split
        · rfl
        · next hId => exact ih ((lists_enter_save.mp hLists).resolve_right fun h => hId h.1)
      | update other change =>
        have hOld := ih ((lists_congr index_enter_update).mp hLists)
        change _ = if ((ofEntries entries).found? s now other).isSome then
          (if other = id then (intended (reached entries) id).map change else intended (reached entries) id)
          else intended (reached entries) id
        rw [record_enter_update hKeeps, ← hOld]
        by_cases hSame : other = id
        · subst hSame
          rw [if_pos rfl, if_pos rfl]
          cases hFound : (ofEntries entries).found? s now other with
          | none => rfl
          | some r =>
            obtain ⟨k, hRecord, rfl, -⟩ := value_of_found? hFound
            rw [hRecord]
            rfl
        · rw [if_neg hSame, if_neg hSame, ite_self]
      | delete other =>
        rw [record_enter_delete]
        change _ = if other = id then none else intended (reached entries) id
        split
        · rfl
        · exact ih (lists_of_enter_delete hLists)

theorem lists_foldl_of_silent (h : ∀ e ∈ after, e.deed.populates = false ∧ e.deed.concerns id = false) :
    (after.foldl enter l).Lists id ↔ l.Lists id := by
  induction after generalizing l with
  | nil => exact Iff.rfl
  | cons e rest ih =>
    obtain ⟨hPopulates, hConcerns⟩ := h e List.mem_cons_self
    rw [List.foldl_cons, ih fun e' hMem => h e' (List.mem_cons_of_mem _ hMem),
      lists_enter_of_silent hPopulates hConcerns]

/-- An object is listed after it was saved if the class's store could read the index then, or it was listed before. -/
theorem lists_of_save {r : Record} (hDeed : e.deed = .save r) (hId : r.objectId? = some id)
    (hAfter : ∀ e' ∈ after, e'.deed.populates = false ∧ e'.deed.concerns id = false) :
    (ofEntries (before ++ e :: after)).Lists id ↔
      (∃ s, e.store = some s ∧ ((ofEntries before).listed? s e.now).isSome) ∨ (ofEntries before).Lists id := by
  rw [ofEntries_append, List.foldl_cons, lists_foldl_of_silent hAfter]
  obtain ⟨store, now, stamp, deed⟩ := e
  cases hDeed
  cases store with
  | none =>
    rw [or_iff_right fun ⟨s, hStore, _⟩ => nomatch hStore]
    exact Iff.rfl
  | some s => simp [lists_enter_save, hId, or_comm]

/-- What is gone comes back only from outside the cache. -/
theorem Kept.record_eq_none (h : Kept (before ++ after)) (hGone : (ofEntries before).record id = none)
    (hAfter : ∀ e ∈ after, e.deed.brings? id = none) : (ofEntries (before ++ after)).record id = none := by
  induction after using List.reverseRecOn with
  | nil => simpa using hGone
  | append_singleton rest e ih =>
    rw [← List.append_assoc] at h ⊢
    obtain ⟨hRest, hKeeps⟩ := h.of_concat
    have hNone := ih hRest fun e hMem => hAfter e (List.mem_append_left _ hMem)
    rw [ofEntries_concat, Option.eq_none_iff_forall_ne_some]
    intro k hRecord
    obtain hSame | ⟨r, hBrings, -⟩ | ⟨s, change, r, -, -, hFound, -⟩ := record_enter_cases hKeeps hRecord
    · exact nomatch hNone.symm.trans hSame
    · exact nomatch (hAfter e (by simp)).symm.trans hBrings
    · obtain ⟨k, hKnown, -⟩ := value_of_found? hFound
      exact nomatch hNone.symm.trans hKnown

/-- The records of a snapshot that is loaded are those of the listed objects. -/
structure Loads (l : Ledger) (records : List Record) : Prop where
  lists : ∀ id, (∃ r ∈ records, r.objectId? = some id) ↔ l.Lists id
  record : ∀ id, ∀ r ∈ records, r.objectId? = some id → (l.record id).map Dated.value = some r

theorem Describes.loads {d d' : Disk} {records : List Record} (h : l.Describes s.className d)
    (hHealthy : Healthy s.className d) (hWindow : s.window.numeric?.isSome)
    (hLoad : Runs s.loadAll d (.ok records) d') : l.Loads records := by
  obtain ⟨ids, hListed, hRecords⟩ := (h.loads_iff hHealthy hWindow).mp ⟨d', hLoad⟩
  have hOwn {id : String} {r : Record} (hFound : l.found? s d.now id = some r) :
      (l.record id).map Dated.value = some r ∧ r.objectId? = some id := by
    obtain ⟨k, hRecord, rfl, -⟩ := value_of_found? hFound
    exact ⟨congrArg _ hRecord, (h.own id k hRecord).2⟩
  have hSearched {r : Record} (hr : r ∈ records) : ∃ id ∈ ids, l.found? s d.now id = some r := by
    have hMem : some r ∈ ids.map (l.found? s d.now) := hRecords ▸ List.mem_map_of_mem hr
    exact List.mem_map.mp hMem
  refine ⟨fun id => ?_, fun id r hr hId => ?_⟩
  · rw [lists_of_listed? hListed]
    constructor
    · rintro ⟨r, hr, hId⟩
      obtain ⟨other, hMem, hFound⟩ := hSearched hr
      obtain rfl : other = id := Option.some.inj ((hOwn hFound).2.symm.trans hId)
      exact hMem
    · intro hMem
      have hFound : l.found? s d.now id ∈ records.map some := hRecords ▸ List.mem_map_of_mem hMem
      obtain ⟨r, hr, hFound⟩ := List.mem_map.mp hFound
      exact ⟨r, hr, (hOwn hFound.symm).2⟩
  · obtain ⟨other, -, hFound⟩ := hSearched hr
    obtain rfl : other = id := Option.some.inj ((hOwn hFound).2.symm.trans hId)
    exact (hOwn hFound).1

end Ledger

/-- The records that are searched are those that the client has written. An object that was saved is among them unless
it was deleted; a record carries all updates of its object, in their order; and what was deleted is not among them
unless it has come back from outside. All that, for what was done since the last population. -/
structure SeesWrites (entries : List Entry) (records : List Record) : Prop where
  saved : ∀ before e after r id, entries = before ++ e :: after → e.deed = .save r → r.objectId? = some id →
    (∀ e' ∈ after, e'.deed.populates = false ∧ e'.deed.concerns id = false) →
    ∃ found ∈ records, found.objectId? = some id
  updated : ∀ before e after change id, entries = before ++ e :: after → e.deed = .update id change →
    (∀ e' ∈ after, e'.deed.populates = false) → ∀ r ∈ records, r.objectId? = some id → intended entries id = some r
  deleted : ∀ before e after id, entries = before ++ e :: after → e.deed = .delete id →
    (∀ e' ∈ after, e'.deed.brings? id = none) → ∀ r ∈ records, r.objectId? ≠ some id

/-- Every write of the client has reached the cache, or makes no difference there. -/
structure WritesReach (entries : List Entry) : Prop where
  /-- The class's own store could read the index, or that had the object already. -/
  saved : ∀ before e after r id, entries = before ++ e :: after → e.deed = .save r → r.objectId? = some id →
    (∀ e' ∈ after, e'.deed.populates = false ∧ e'.deed.concerns id = false) →
    (∃ s, e.store = some s ∧ ((Ledger.ofEntries before).listed? s e.now).isSome) ∨ (Ledger.ofEntries before).Lists id
  /-- The object is the same without the updates that have not found it in the cache. -/
  updated : ∀ before e after change id, entries = before ++ e :: after → e.deed = .update id change →
    (∀ e' ∈ after, e'.deed.populates = false) → (Ledger.ofEntries entries).Lists id →
    intended (reached entries) id = intended entries id
  /-- The class was cached, or the object is not listed. -/
  deleted : ∀ before e after id, entries = before ++ e :: after → e.deed = .delete id →
    (∀ e' ∈ after, e'.deed.brings? id = none) → e.store = none → ¬ (Ledger.ofEntries entries).Lists id

end LocalStore

namespace Session

open LocalStore (Deed Entry Ledger SeesWrites WritesReach intended)

variable {κ α : Type} {notify : Notify κ α} {start t : Session κ α} {entries : List Entry} {s : LocalStore}
  {records : List Record} {d' : Disk}

/-- After every history of a class, a query that is answered from the snapshot, with whatever window, sees the client's
own writes exactly when each of them has reached the cache or makes no difference there. -/
theorem seesWrites_iff (hNotify : ∀ caller outcome, Aside (notify caller outcome)) (hStart : Unused s.className start)
    (h : History notify s.className start entries t) (hWindow : s.window.numeric?.isSome)
    (hLoad : Runs s.loadAll t.disk (.ok records) d') : SeesWrites entries records ↔ LocalStore.WritesReach entries := by
  obtain ⟨hBooked, hKept⟩ := h.booked hNotify hStart
  have hLoads := hBooked.describes.loads hBooked.healthy hWindow hLoad
  have hReached {id : String} {r : Record} (hr : r ∈ records) (hId : r.objectId? = some id) :
      intended (LocalStore.reached entries) id = some r := by
    rw [← hKept.record_eq ((hLoads.lists id).mp ⟨r, hr, hId⟩)]
    exact hLoads.record id r hr hId
  constructor
  · rintro ⟨hSees, hCarries, hMisses⟩
    refine ⟨fun before e after r id hSplit hDeed hId hAfter => ?_,
      fun before e after change id hSplit hDeed hAfter hLists => ?_,
      fun before e after id hSplit hDeed hAfter _ hLists => ?_⟩
    · rw [← Ledger.lists_of_save hDeed hId hAfter, ← hSplit, ← hLoads.lists]
      exact hSees before e after r id hSplit hDeed hId hAfter
    · obtain ⟨r, hr, hId⟩ := (hLoads.lists id).mpr hLists
      rw [hReached hr hId, hCarries before e after change id hSplit hDeed hAfter r hr hId]
    · obtain ⟨r, hr, hId⟩ := (hLoads.lists id).mpr hLists
      exact hMisses before e after id hSplit hDeed hAfter r hr hId
  · rintro ⟨hReach, hChange, hCached⟩
    refine ⟨fun before e after r id hSplit hDeed hId hAfter => ?_,
      fun before e after change id hSplit hDeed hAfter r hr hId => ?_,
      fun before e after id hSplit hDeed hAfter r hr hId => ?_⟩
    · rw [hLoads.lists, hSplit, Ledger.lists_of_save hDeed hId hAfter]
      exact hReach before e after r id hSplit hDeed hId hAfter
    · have hLists := (hLoads.lists id).mp ⟨r, hr, hId⟩
      rw [← hChange before e after change id hSplit hDeed hAfter hLists, hReached hr hId]
    · cases hStore : e.store with
      | none => exact hCached before e after id hSplit hDeed hAfter hStore ((hLoads.lists id).mp ⟨r, hr, hId⟩)
      | some own =>
        -- the record went with the object, and nothing has brought it back
        have hGone : (Ledger.ofEntries (before ++ [e])).record id = none := by
          obtain ⟨store, now, stamp, deed⟩ := e
          cases hDeed
          cases hStore
          rw [Ledger.ofEntries_concat, Ledger.record_enter_delete, if_pos rfl]
        have hRecord := hLoads.record id r hr hId
        have hSame : entries = (before ++ [e]) ++ after := by rw [hSplit, List.append_assoc, List.singleton_append]
        rw [hSame] at hKept hRecord
        rw [hKept.record_eq_none hGone hAfter] at hRecord
        cases hRecord

/-! ### A note that is saved when its class's own store cannot read the index -/

def oldNote : Record := .ofFields [("objectId", .string "a")]

def withOldNote : Session Unit Unit := blank [.object [("objectId", .string "a")]]

/-- Queries may look at notes that are older than a minute. -/
def quarter : LocalStore := ⟨"Note", .int 1000⟩

/-- A population has found the old note, and another one was saved some time later. -/
def savedAfter (wait : Float) : List Entry := [populated [oldNote], saved wait]

theorem history_savedAfter (wait rest : Float) :
    ∃ s, History unheard "Note" withOldNote (savedAfter wait) s ∧ s.disk.now = 1000.0 + wait + rest := by
  have hAccepts : minute.Accepts withOldNote.disk [oldNote] := by
    intro r hr
    obtain rfl := List.mem_singleton.mp hr
    exact ⟨⟨_, by decide, rfl⟩, "a", rfl, Disk.bears_of_kind (by simp [withOldNote, blank]) _ _⟩
  have hIds : [oldNote].map Record.objectId? = ["a"].map some := rfl
  obtain ⟨s, hHistory, hNow, hKind, hStore, hServer⟩ := history_populated rfl hAccepts hIds (by decide)
    (by decide) (by decide +kernel) wait
  exact history_saved hHistory hNow hKind hStore hServer rest

theorem record_savedAfter (wait : Float) :
    (Ledger.ofEntries (savedAfter wait)).record "a" = some ⟨oldNote, 1000.0⟩ := by
  have hFound : ([oldNote].reverse.find? fun r => r.objectId? = some "a") = some oldNote := rfl
  have hPopulated : (Ledger.ofEntries [populated [oldNote]]).record "a" = _ := Ledger.record_enter_populate
  rw [savedAfter, record_saved (by decide), hPopulated, hFound]
  rfl

theorem saved_of_split {wait : Float} {before after : List Entry} {e : Entry}
    (hSplit : savedAfter wait = before ++ e :: after) (hPopulates : e.deed.populates = false) :
    before = [populated [oldNote]] ∧ e = saved wait := by
  match before with
  | [] =>
    cases hSplit
    cases hPopulates
  | [first] =>
    cases hSplit
    exact ⟨rfl, rfl⟩
  | first :: second :: rest => simp [savedAfter] at hSplit

theorem found?_oldNote {wait now : Float} (hFresh : quarter.outlived (now - 1000.0) = false) :
    (Ledger.ofEntries (savedAfter wait)).found? quarter now "a" = some oldNote := by
  rw [Ledger.found?, record_savedAfter, Option.bind_some, LocalStore.Dated.fresh?, hFresh]
  rfl

/-- The index is fifty seconds old: the new note is listed, and is seen with any window. -/
theorem seesWrites_iff_savedAfter : ∃ s records d', History unheard "Note" withOldNote (savedAfter 50.0) s ∧
    Runs quarter.loadAll s.disk (.ok records) d' ∧ SeesWrites (savedAfter 50.0) records := by
  obtain ⟨s, hHistory, hNow⟩ := history_savedAfter 50.0 0.0
  obtain ⟨hBooked, -⟩ := hHistory.booked aside_unheard (unused_blank _)
  have hListed : (Ledger.ofEntries (savedAfter 50.0)).listed? quarter s.disk.now = some ["a", "b"] := by
    rw [hNow]
    decide +kernel
  have hOld : (Ledger.ofEntries (savedAfter 50.0)).found? quarter s.disk.now "a" = some oldNote :=
    found?_oldNote (by rw [hNow]; decide +kernel)
  have hNew : (Ledger.ofEntries (savedAfter 50.0)).found? quarter s.disk.now "b" = some savedNote := by
    have hFresh : quarter.outlived (s.disk.now - (1000.0 + 50.0)) = false := by
      rw [hNow]
      decide +kernel
    have hRecord : (Ledger.ofEntries (savedAfter 50.0)).record "b" = some ⟨savedNote, 1000.0 + 50.0⟩ :=
      Ledger.record_enter_save
    rw [Ledger.found?, hRecord, Option.bind_some, LocalStore.Dated.fresh?, hFresh]
    rfl
  have hRecords : ["a", "b"].map ((Ledger.ofEntries (savedAfter 50.0)).found? quarter s.disk.now) =
      [oldNote, savedNote].map some := by
    rw [List.map_cons, List.map_cons, hOld, hNew]
    rfl
  obtain ⟨d', hLoad⟩ := (hBooked.describes.loads_iff hBooked.healthy (s := quarter) rfl).mpr ⟨_, hListed, hRecords⟩
  refine ⟨s, _, d', hHistory, hLoad, (seesWrites_iff aside_unheard (unused_blank _) hHistory rfl hLoad).mpr
    ⟨fun before e after r id hSplit hDeed _ _ => ?_, fun before e after change id hSplit hDeed _ _ => ?_,
      fun before e after id hSplit hDeed _ _ => ?_⟩⟩
  · obtain ⟨rfl, rfl⟩ := saved_of_split hSplit (by rw [hDeed]; rfl)
    exact .inl ⟨minute, rfl, by decide +kernel⟩
  · obtain ⟨-, rfl⟩ := saved_of_split hSplit (by rw [hDeed]; rfl)
    cases hDeed
  · obtain ⟨-, rfl⟩ := saved_of_split hSplit (by rw [hDeed]; rfl)
    cases hDeed

/-- The index is a hundred seconds old, and the class keeps its notes for a minute: the new note is not listed, and a
query with a longer window does not see it. -/
theorem not_seesWrites_savedAfter : ∃ s records d', History unheard "Note" withOldNote (savedAfter 100.0) s ∧
    Runs quarter.loadAll s.disk (.ok records) d' ∧ ¬ SeesWrites (savedAfter 100.0) records := by
  obtain ⟨s, hHistory, hNow⟩ := history_savedAfter 100.0 0.0
  obtain ⟨hBooked, -⟩ := hHistory.booked aside_unheard (unused_blank _)
  have hListed : (Ledger.ofEntries (savedAfter 100.0)).listed? quarter s.disk.now = some ["a"] := by
    rw [hNow]
    decide +kernel
  have hRecords : ["a"].map ((Ledger.ofEntries (savedAfter 100.0)).found? quarter s.disk.now) =
      [oldNote].map some := by
    rw [List.map_singleton, found?_oldNote (by rw [hNow]; decide +kernel)]
    rfl
  obtain ⟨d', hLoad⟩ := (hBooked.describes.loads_iff hBooked.healthy (s := quarter) rfl).mpr ⟨_, hListed, hRecords⟩
  refine ⟨s, [oldNote], d', hHistory, hLoad, fun hSees => ?_⟩
  obtain ⟨r, hr, hId⟩ := hSees.saved [populated [oldNote]] (saved 100.0) [] savedNote "b" rfl rfl rfl nofun
  obtain rfl := List.mem_singleton.mp hr
  exact absurd hId (by decide)

end Session

end RecordCache
