import RecordCache.Proofs.Client.History

/-!
# Writes renew what is served

A save or a delete writes an index that can be read anew, and an update so writes a record. Each of them has the
whole window again then, whenever a population or a batch brought what is served. So all that is served goes back to
the server, but only over writes each of which came within the window of the one before; the source itself may be
much older than the window.
-/

namespace RecordCache

namespace LocalStore

variable {s : LocalStore} {entries : List Entry} {e : Entry} {source renewal : Entry → Prop} {stamp : Float}
  {id : String}

/-- Written last at this time: by an entry of one kind, or by one of the other kind within the window of something
that goes back so. -/
inductive Renewed (s : LocalStore) (source renewal : Entry → Prop) : List Entry → Float → Prop
  | source (before : List Entry) (e : Entry) (after : List Entry) (h : source e) :
    Renewed s source renewal (before ++ e :: after) e.stamp
  | renewal {before : List Entry} {stamp : Float} (e : Entry) (after : List Entry)
    (h : Renewed s source renewal before stamp) (hKind : renewal e) (hFresh : s.outlived (e.now - stamp) = false) :
    Renewed s source renewal (before ++ e :: after) e.stamp

theorem Renewed.append (h : Renewed s source renewal entries stamp) (more : List Entry) :
    Renewed s source renewal (entries ++ more) stamp := by
  cases h with
  | source before e after h =>
    rw [List.append_assoc]
    exact .source before e (after ++ more) h
  | renewal e after h hKind hFresh =>
    rw [List.append_assoc]
    exact .renewal e (after ++ more) h hKind hFresh

namespace Ledger

/-- The index goes back to a population, over saves and deletes. -/
theorem renewed_index (hKept : Kept entries) (hStore : ∀ e ∈ entries, e.store = some s) {k : Dated (List String)}
    (h : (ofEntries entries).index = some k) :
    Renewed s (fun e => e.deed.populates) (fun e => e.deed.relists) entries k.stamp := by
  induction hKept generalizing k with
  | nil => cases h
  | @concat entries e _ _ ih =>
    have hBefore {k : Dated (List String)} := ih (fun e hMem => hStore e (List.mem_append_left _ hMem)) (k := k)
    rw [ofEntries_concat] at h
    obtain hSame | ⟨s', ids, hOwn, hWritten, hPopulates | ⟨hRelists, hReads⟩⟩ := index_enter (ofEntries entries) e
    · exact (hBefore (hSame.symm.trans h)).append [e]
    · cases hWritten.symm.trans h
      exact .source entries e [] hPopulates
    · -- who could read the index then found it fresh
      cases hWritten.symm.trans h
      cases (hStore e (by simp)).symm.trans hOwn
      obtain ⟨listed, hListed⟩ := Option.isSome_iff_exists.mp hReads
      obtain ⟨old, hIndex, -, hFresh⟩ := value_of_listed? hListed
      exact .renewal e [] (hBefore hIndex) hRelists hFresh

theorem renewed_record (hKept : Kept entries) (hStore : ∀ e ∈ entries, e.store = some s) {k : Dated Record}
    (h : (ofEntries entries).record id = some k) :
    Renewed s (fun e => (e.deed.brings? id).isSome) (fun e => ∃ change, e.deed = .update id change) entries
      k.stamp := by
  induction hKept generalizing k with
  | nil => cases h
  | @concat entries e _ hKeeps ih =>
    have hBefore {k : Dated Record} := ih (fun e hMem => hStore e (List.mem_append_left _ hMem)) (k := k)
    rw [ofEntries_concat] at h
    obtain hSame | ⟨r, hBrings, rfl⟩ | ⟨s', change, r, hOwn, hDeed, hFound, rfl⟩ := record_enter_cases hKeeps h
    · exact (hBefore hSame).append [e]
    · exact .source entries e [] (Option.isSome_of_eq_some hBrings)
    · cases (hStore e (by simp)).symm.trans hOwn
      obtain ⟨old, hRecord, -, hFresh⟩ := value_of_found? hFound
      exact .renewal e [] (hBefore hRecord) ⟨change, hDeed⟩ hFresh

/-- Neither the index nor any record that it lists is too old. -/
def IsFresh (l : Ledger) (s : LocalStore) (now : Float) : Prop :=
  ∃ ids, l.listed? s now = some ids ∧ ∀ id ∈ ids, (l.found? s now id).isSome

end Ledger

/-- There is an entry of this kind that is not too old. -/
def Recent (s : LocalStore) (now : Float) (source : Entry → Prop) (entries : List Entry) : Prop :=
  ∃ e ∈ entries, source e ∧ s.outlived (now - e.now) = false

/-- Something was written last at a time that is not too old. -/
def Alive (s : LocalStore) (now : Float) (source renewal : Entry → Prop) (entries : List Entry) : Prop :=
  ∃ stamp, Renewed s source renewal entries stamp ∧ s.outlived (now - stamp) = false

/-- The snapshot can be loaded only if one thing holds, and the record under an id only if another does. -/
structure ServesOnlyIf (s : LocalStore) (d : Disk) (snapshot : Prop) (record : String → Prop) : Prop where
  loadAll : ∀ records d', Runs s.loadAll d (.ok records) d' → snapshot
  get : ∀ id r d', d.Bears s.className id → id ≠ ".list" → Runs (s.get (.string id)) d (.ok r) d' → record id

/-- What is served has come within the window: the snapshot with a population, a record with what brought it. -/
def ServesRecent (s : LocalStore) (d : Disk) (entries : List Entry) : Prop :=
  s.ServesOnlyIf d (Recent s d.now (fun e => e.deed.populates) entries)
    fun id => Recent s d.now (fun e => (e.deed.brings? id).isSome) entries

/-- What is served has come once, and was written again before it was too old: the snapshot by saves and deletes, a
record by updates. -/
def ServesAlive (s : LocalStore) (d : Disk) (entries : List Entry) : Prop :=
  s.ServesOnlyIf d (Alive s d.now (fun e => e.deed.populates) (fun e => e.deed.relists) entries)
    fun id =>
      Alive s d.now (fun e => (e.deed.brings? id).isSome) (fun e => ∃ change, e.deed = .update id change) entries

theorem Ledger.Describes.servesOnlyIf_iff {l : Ledger} {d : Disk} (h : l.Describes s.className d)
    (hHealthy : Healthy s.className d) (hWindow : s.window.numeric?.isSome) {snapshot : Prop} {record : String → Prop} :
    s.ServesOnlyIf d snapshot record ↔ (l.IsFresh s d.now → snapshot) ∧
      ∀ id, d.Bears s.className id → id ≠ ".list" → (l.found? s d.now id).isSome → record id := by
  constructor
  · rintro ⟨hLoadAll, hGet⟩
    refine ⟨?_, fun id hBears hApart hFound => ?_⟩
    · rintro ⟨ids, hListed, hFresh⟩
      have hFound : ∃ records : List Record, ids.map (l.found? s d.now) = records.map some :=
        ⟨ids.attach.map fun id => (l.found? s d.now id.1).get (hFresh id.1 id.2), by simp⟩
      obtain ⟨records, hRecords⟩ := hFound
      obtain ⟨d', hRun⟩ := (h.loads_iff hHealthy hWindow).mpr ⟨ids, hListed, hRecords⟩
      exact hLoadAll records d' hRun
    · obtain ⟨r, hRecord⟩ := Option.isSome_iff_exists.mp hFound
      obtain ⟨d', hRun⟩ := (h.gets_iff hHealthy hWindow hBears hApart).mpr hRecord
      exact hGet id r d' hBears hApart hRun
  · rintro ⟨hSnapshot, hRecord⟩
    refine ⟨fun records d' hRun => hSnapshot ?_, fun id r d' hBears hApart hRun => ?_⟩
    · obtain ⟨ids, hListed, hRecords⟩ := (h.loads_iff hHealthy hWindow).mp ⟨d', hRun⟩
      refine ⟨ids, hListed, fun id hMem => ?_⟩
      have hFound : l.found? s d.now id ∈ records.map some := hRecords ▸ List.mem_map_of_mem hMem
      obtain ⟨r, -, hFound⟩ := List.mem_map.mp hFound
      exact Option.isSome_of_eq_some hFound.symm
    · have hFound := (h.gets_iff hHealthy hWindow hBears hApart).mp ⟨d', hRun⟩
      exact hRecord id hBears hApart (Option.isSome_of_eq_some hFound)

end LocalStore

namespace Session

open LocalStore (Alive Deed Entry Ledger Recent)

variable {κ α : Type} {notify : Notify κ α} {start t : Session κ α} {entries : List Entry} {s : LocalStore}

/-- On a class with one window: what is served has come within the window exactly when nothing is fresh without a
source that is. In any case it goes back to its source over writes, each within the window of the one before. -/
theorem servesRecent_iff (hNotify : ∀ caller outcome, Aside (notify caller outcome))
    (hStart : Unused s.className start) (h : History notify s.className start entries t)
    (hStore : ∀ e ∈ entries, e.store = some s) (hWindow : s.window.numeric?.isSome) :
    (s.ServesRecent t.disk entries ↔
      ((Ledger.ofEntries entries).IsFresh s t.disk.now → Recent s t.disk.now (fun e => e.deed.populates) entries) ∧
      ∀ id, t.disk.Bears s.className id → id ≠ ".list" →
        ((Ledger.ofEntries entries).found? s t.disk.now id).isSome →
        Recent s t.disk.now (fun e => (e.deed.brings? id).isSome) entries) ∧
    s.ServesAlive t.disk entries := by
  obtain ⟨hBooked, hKept⟩ := h.booked hNotify hStart
  refine ⟨hBooked.describes.servesOnlyIf_iff hBooked.healthy hWindow,
    (hBooked.describes.servesOnlyIf_iff hBooked.healthy hWindow).mpr ⟨?_, ?_⟩⟩
  · rintro ⟨ids, hListed, -⟩
    obtain ⟨k, hIndex, -, hFresh⟩ := Ledger.value_of_listed? hListed
    exact ⟨k.stamp, Ledger.renewed_index hKept hStore hIndex, hFresh⟩
  · intro id _ _ hFound
    obtain ⟨r, hFound⟩ := Option.isSome_iff_exists.mp hFound
    obtain ⟨k, hRecord, -, hFresh⟩ := Ledger.value_of_found? hFound
    exact ⟨k.stamp, Ledger.renewed_record hKept hStore hRecord, hFresh⟩

/-! ### A note that is saved late -/

def minute : LocalStore := ⟨"Note", .int 60⟩

def savedFields : Fields Json := [("objectId", .string "b"), ("createdAt", .string "2015-01-01T00:00:00.000Z")]

def savedNote : Record := .ofFields (savedFields ++ [("updatedAt", .string "2015-01-01T00:00:00.000Z")])

/-- Nothing is cached yet. The server has these notes, and takes a new one. -/
def blank (items : List Json) : Session Unit Unit :=
  { registry := { windows := [("Note", .int 60)] }
    server := [fun _ => .ok (.object [("results", .array items)]), fun _ => .ok (.object savedFields)]
    app := () }

def unheard : Notify Unit Unit := fun _ _ => return ()

theorem aside_unheard (caller : Unit) (outcome : Delivery) : Aside (unheard caller outcome) := by
  intro s result t hRun
  obtain ⟨-, rfl⟩ := hRun.unique (.ret _ s)
  exact ⟨rfl, rfl⟩

theorem unused_blank (items : List Json) : Unused "Note" (blank items) where
  blob _ := rfl
  healthy := ⟨fun _ _ => rfl, rfl, Disk.bears_of_kind (by simp [blank]) _ _⟩
  registry := by
    refine ⟨fun className window hWindow => ?_, fun _ _ hRef => nomatch hRef⟩
    obtain ⟨-, rfl⟩ := Prod.mk.inj (List.mem_singleton.mp (Assoc.mem_of_get? hWindow))
    rfl

def populated (records : List Record) : Entry := ⟨some minute, 1000.0, 1000.0, .populate records⟩

def saved (wait : Float) : Entry := ⟨some minute, 1000.0 + wait, 1000.0 + wait, .save savedNote⟩

/-- A population brings what the server has, and some time passes. -/
theorem history_populated {items : List Json} {records : List Record} {ids : List String}
    (hRecords : items.mapM Record.ofJson = .ok records) (hAccepts : minute.Accepts (blank items).disk records)
    (hIds : records.map Record.objectId? = ids.map some) (hNodup : ids.Nodup) (hList : ".list" ∉ ids)
    (hShort : (Number.int records.length).less (.int 1000) = true) (wait : Float) :
    ∃ s, History unheard "Note" (blank items) [populated records] s ∧ s.disk.now = 1000.0 + wait ∧
      s.disk.kind = .memory ∧ s.classStore "Note" = some minute ∧
      s.server.head? = some fun _ => .ok (.object savedFields) := by
  have hAccepted : ((blank items).entry "Note" (.populate records)).Accepted (blank items).disk := by
    refine ⟨fun s hStore t ht => ?_, fun _ _ _ _ _ hDeed => by cases hDeed⟩
    cases hStore
    obtain rfl := List.mem_singleton.mp ht
    exact ⟨ids, hAccepts, hIds, hNodup, hList⟩
  obtain ⟨calls, disk, hPopulate, hLeaves⟩ := runs_populate (unused_blank items).booked unheard rfl rfl rfl
    (fun _ => rfl) hRecords rfl hShort hAccepted
  exact ⟨_, (History.populate .start rfl hPopulate hAccepted).other (Spares.advance "Note" _ wait),
    congrArg (· + wait) hLeaves.now, hLeaves.kind, rfl, rfl⟩

/-- Then a note is saved, and some more time passes. -/
theorem history_saved {items : List Json} {records : List Record} {s : Session Unit Unit} {wait : Float}
    (hHistory : History unheard "Note" (blank items) [populated records] s) (hNow : s.disk.now = 1000.0 + wait)
    (hKind : s.disk.kind = .memory) (hStore : s.classStore "Note" = some minute)
    (hServer : s.server.head? = some fun _ => .ok (.object savedFields)) (rest : Float) :
    ∃ t, History unheard "Note" (blank items) [populated records, saved wait] t ∧
      t.disk.now = 1000.0 + wait + rest := by
  have hBears (key : String) : s.disk.Bears "Note" key := Disk.bears_of_kind (by simp [hKind]) _ _
  have hEntry : s.entry "Note" (.save savedNote) = saved wait := by
    have hStamp : s.disk.stamp = s.disk.now := by rw [Disk.stamp, hKind]
    rw [entry, hStore, hStamp, hNow, saved]
  have hAccepted : (s.entry "Note" (.save savedNote)).Accepted s.disk := by
    rw [hEntry]
    refine ⟨fun store hOwn t ht => ?_, fun _ _ _ _ _ hDeed => by cases hDeed⟩
    cases hOwn
    obtain rfl := List.mem_singleton.mp ht
    exact ⟨"b", ⟨_, by decide, rfl⟩, rfl, hBears _, by decide⟩
  obtain ⟨t, hCreate, hLeaves⟩ := runs_create (b := { className := "Note" })
    (hHistory.booked aside_unheard (unused_blank items)).1 rfl rfl rfl rfl hServer rfl rfl rfl hAccepted
  refine ⟨_, (hEntry ▸ hHistory.create rfl hCreate hAccepted).other (Spares.advance "Note" t rest), ?_⟩
  rw [← hNow, ← hLeaves.now]
  rfl

/-- A population has found no notes, and one was saved fifty seconds later. -/
def savedLate : List Entry := [populated [], saved 50.0]

theorem history_savedLate (rest : Float) :
    ∃ s, History unheard "Note" (blank []) savedLate s ∧ s.disk.now = 1000.0 + 50.0 + rest := by
  have hAccepts : minute.Accepts (blank []).disk [] := nofun
  obtain ⟨s, hHistory, hNow, hKind, hStore, hServer⟩ := history_populated rfl hAccepts rfl List.nodup_nil
    List.not_mem_nil (by decide +kernel) 50.0
  exact history_saved hHistory hNow hKind hStore hServer rest

theorem record_saved {records : List Record} {wait : Float} {id : String} (hOther : id ≠ "b") :
    (Ledger.ofEntries [populated records, saved wait]).record id =
      (Ledger.ofEntries [populated records]).record id := by
  have hEntered : (Ledger.ofEntries [populated records, saved wait]).record id =
      if savedNote.objectId? = some id then some ⟨savedNote, 1000.0 + wait⟩ else
        ((Ledger.ofEntries [populated records]).record id) := Ledger.record_enter_save
  have hId : savedNote.objectId? = some "b" := rfl
  rw [hEntered, hId, if_neg fun hSame => hOther (Option.some.inj hSame).symm]

/-- Five seconds after the save the population is not too old yet. -/
theorem servesRecent_iff_savedLate :
    ∃ s, History unheard "Note" (blank []) savedLate s ∧ minute.ServesRecent s.disk savedLate := by
  obtain ⟨s, hHistory, hNow⟩ := history_savedLate 5.0
  have hIff := servesRecent_iff aside_unheard (unused_blank []) hHistory (s := minute)
    (by simp [savedLate, populated, saved]) rfl
  refine ⟨s, hHistory, hIff.1.mpr ⟨fun _ => ?_, fun id _ _ hFound => ?_⟩⟩
  · exact ⟨populated [], List.mem_cons_self, rfl, by rw [hNow]; decide +kernel⟩
  · by_cases hId : id = "b"
    · subst hId
      exact ⟨saved 50.0, by simp [savedLate], rfl, by rw [hNow]; decide +kernel⟩
    · have hNone : (Ledger.ofEntries savedLate).record id = none :=
        (record_saved hId).trans Ledger.record_enter_populate
      rw [Ledger.found?, hNone] at hFound
      cases hFound

/-- Fifty seconds after the save the snapshot is served, although the population is too old. -/
theorem not_servesRecent_savedLate :
    ∃ s, History unheard "Note" (blank []) savedLate s ∧ ¬ minute.ServesRecent s.disk savedLate := by
  obtain ⟨s, hHistory, hNow⟩ := history_savedLate 50.0
  obtain ⟨hBooked, -⟩ := hHistory.booked aside_unheard (unused_blank [])
  refine ⟨s, hHistory, fun hServes => ?_⟩
  have hFresh : (Ledger.ofEntries savedLate).IsFresh minute s.disk.now := by
    rw [hNow]
    exact ⟨["b"], by decide +kernel, by decide +kernel⟩
  obtain ⟨e, hMem, hPopulates, hRecent⟩ :=
    ((hBooked.describes.servesOnlyIf_iff hBooked.healthy (s := minute) rfl).mp hServes).1 hFresh
  obtain rfl | rfl : e = populated [] ∨ e = saved 50.0 := by simpa [savedLate] using hMem
  · rw [hNow] at hRecent
    exact absurd hRecent (by decide +kernel)
  · cases hPopulates

end Session

end RecordCache
