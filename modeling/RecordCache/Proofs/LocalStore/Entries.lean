import RecordCache.Proofs.LocalStore.Ledger

/-!
# Entry by entry

What one entry changes in a ledger: the index with the time of its last write, the ids that are listed, and the
record under an id.
-/

namespace RecordCache.LocalStore

/-- The record that comes under an id from outside the cache. -/
def Deed.brings? (id : String) : Deed → Option Record
  | populate records | receive records => records.reverse.find? fun r => r.objectId? = some id
  | save r => if r.objectId? = some id then some r else none
  | update .. | delete _ => none

def Deed.populates : Deed → Bool
  | populate _ => true
  | _ => false

/-- Whether it may change an index that is there. -/
def Deed.relists : Deed → Bool
  | save _ | delete _ => true
  | _ => false

/-- Whether it saves or deletes this object. -/
def Deed.concerns (id : String) : Deed → Bool
  | save r => r.objectId? = some id
  | delete other => other = id
  | populate _ | receive _ | update .. => false

/-- The store of the class goes through the turns of the entry, if the class has a store. -/
def Entry.Done (e : Entry) (d d' : Disk) : Prop :=
  match e.store with
  | some s => s.Happens d (e.deed.turns (s.found? d)) d'
  | none => d' = d

/-- What the entry brings to a disk are records that can be kept, and names that the disk bears. An update leaves
the object with its id. -/
structure Entry.Accepted (e : Entry) (d : Disk) : Prop where
  turns : ∀ s, e.store = some s → ∀ t ∈ e.deed.turns (s.found? d), t.Accepted s d
  id : ∀ s id change r, e.store = some s → e.deed = .update id change → s.found? d id = some r →
    (change r).objectId? = some id

theorem Entry.Accepted.recounted {e : Entry} {d : Disk} (h : e.Accepted d) (k : Nat) :
    e.Accepted { d with accesses := k } where
  turns s hStore t ht := (h.turns s hStore t ht).mono fun _ hBears => hBears.of_same rfl rfl rfl
  id := h.id

namespace Ledger

variable {l : Ledger} {s : LocalStore} {now stamp : Float} {entries : List Entry} {e : Entry} {records : List Record}
  {r : Record} {id other : String} {change : Record → Record}

theorem ofEntries_append (entries more : List Entry) :
    ofEntries (entries ++ more) = more.foldl enter (ofEntries entries) :=
  List.foldl_append

theorem ofEntries_concat (entries : List Entry) (e : Entry) :
    ofEntries (entries ++ [e]) = (ofEntries entries).enter e :=
  List.foldl_concat ..

def KeepsId (l : Ledger) (e : Entry) : Prop :=
  ∀ s id change r, e.store = some s → e.deed = .update id change → l.found? s e.now id = some r →
    (change r).objectId? = some id

/-- Updates leave all objects with their ids. -/
inductive Kept : List Entry → Prop
  | nil : Kept []
  | concat {entries : List Entry} {e : Entry} (h : Kept entries) (hKeeps : (ofEntries entries).KeepsId e) :
    Kept (entries ++ [e])

theorem Kept.of_concat (h : Kept (entries ++ [e])) : Kept entries ∧ (ofEntries entries).KeepsId e := by
  generalize hEntries : entries ++ [e] = all at h
  cases h with
  | nil => simp at hEntries
  | concat h hKeeps =>
    obtain ⟨rfl, hSame⟩ := List.append_inj' hEntries rfl
    cases hSame
    exact ⟨h, hKeeps⟩

/-! ### The index -/

/-- The index lists the id, be it too old or not. -/
def Lists (l : Ledger) (id : String) : Prop := ∃ k, l.index = some k ∧ id ∈ k.value

theorem lists_of_listed? {ids : List String} (h : l.listed? s now = some ids) : l.Lists id ↔ id ∈ ids := by
  obtain ⟨k, hIndex, rfl, -⟩ := value_of_listed? h
  simp [Lists, hIndex]

/-- A turn leaves the index as it is or writes it, and only a population writes one that cannot be read. -/
theorem index_take (s : LocalStore) (now stamp : Float) (l : Ledger) (t : Turn) :
    (take s now stamp l t).index = l.index ∨
      ∃ ids, (take s now stamp l t).index = some ⟨ids, stamp⟩ ∧ (t.replaces ∨ (l.listed? s now).isSome) := by
  cases t with
  | replace records => exact .inr ⟨_, rfl, .inl rfl⟩
  | create r =>
    cases hListed : l.listed? s now with
    | none => exact .inl (by simp [take, Turn.rewrites, hListed])
    | some ids => exact .inr ⟨_, by simp [take, Turn.rewrites, Turn.listedAfter, hListed]; rfl, .inr rfl⟩
  | remove id =>
    cases hListed : l.listed? s now with
    | none => exact .inl (by simp [take, Turn.rewrites, hListed])
    | some ids =>
      by_cases hMem : id ∈ ids
      · exact .inr ⟨_, by simp [take, Turn.rewrites, Turn.listedAfter, hListed, hMem]; rfl, .inr rfl⟩
      · exact .inl (by simp [take, Turn.rewrites, hListed, hMem])
  | keep _ | look _ _ | elapse _ => exact .inl rfl

theorem index_keepAll (s : LocalStore) (now stamp : Float) (l : Ledger) (records : List Record) :
    ((records.map Turn.keep).foldl (take s now stamp) l).index = l.index := by
  induction records generalizing l with
  | nil => rfl
  | cons r rest ih => exact ih _

theorem index_enter_receive : (l.enter ⟨some s, now, stamp, .receive records⟩).index = l.index :=
  index_keepAll s now stamp l records

theorem index_enter_update : (l.enter ⟨some s, now, stamp, .update id change⟩).index = l.index :=
  index_keepAll s now stamp l ((l.found? s now id).map change).toList

/-- An entry leaves the index as it is or writes it. Unless it is a population, it writes only an index that its
store can read, as one that saves or deletes. -/
theorem index_enter (l : Ledger) (e : Entry) :
    (l.enter e).index = l.index ∨ ∃ s ids, e.store = some s ∧ (l.enter e).index = some ⟨ids, e.stamp⟩ ∧
      (e.deed.populates ∨ e.deed.relists ∧ (l.listed? s e.now).isSome) := by
  obtain ⟨store, now, stamp, deed⟩ := e
  cases store with
  | none => exact .inl rfl
  | some s =>
    cases deed with
    | populate records => exact .inr ⟨s, _, rfl, rfl, .inl rfl⟩
    | receive records => exact .inl index_enter_receive
    | save r =>
      refine (index_take s now stamp l (.create r)).imp_right ?_
      rintro ⟨ids, hIndex, hReads⟩
      exact ⟨s, ids, rfl, hIndex, .inr ⟨rfl, hReads.resolve_left (by simp [Turn.replaces])⟩⟩
    | update id change => exact .inl index_enter_update
    | delete id =>
      refine (index_take s now stamp l (.remove id)).imp_right ?_
      rintro ⟨ids, hIndex, hReads⟩
      exact ⟨s, ids, rfl, hIndex, .inr ⟨rfl, hReads.resolve_left (by simp [Turn.replaces])⟩⟩

/-! ### The ids that are listed -/

theorem lists_congr {l l' : Ledger} (h : l.index = l'.index) : l.Lists id ↔ l'.Lists id := by
  rw [Lists, Lists, h]

theorem lists_enter_populate :
    (l.enter ⟨some s, now, stamp, .populate records⟩).Lists id ↔ ∃ r ∈ records, r.objectId? = some id := by
  simp [Lists, enter, Deed.turns, take, Turn.rewrites, Turn.listedAfter]

theorem lists_enter_save : (l.enter ⟨some s, now, stamp, .save r⟩).Lists id ↔
    l.Lists id ∨ r.objectId? = some id ∧ (l.listed? s now).isSome := by
  have hEnter : l.enter ⟨some s, now, stamp, .save r⟩ = take s now stamp l (.create r) := rfl
  rw [hEnter]
  cases hListed : l.listed? s now with
  | none =>
    rw [lists_congr (show (take s now stamp l (.create r)).index = l.index by simp [take, Turn.rewrites, hListed])]
    simp
  | some ids =>
    rw [lists_of_listed? hListed]
    cases hId : r.objectId? with
    | none => simp [Lists, take, Turn.rewrites, Turn.listedAfter, hListed, hId]
    | some own =>
      simp only [Lists, take, Turn.rewrites, Turn.listedAfter, hListed, hId, Option.isSome_some, if_true,
        Option.map_some, Option.elim_some, Option.some.injEq, exists_eq_left', and_true]
      by_cases hMem : own ∈ ids
      · rw [if_pos hMem]
        exact ⟨.inl, fun h => h.elim (fun h => h) fun h => h ▸ hMem⟩
      · simp [hMem, eq_comm]

theorem lists_of_enter_delete (h : (l.enter ⟨some s, now, stamp, .delete other⟩).Lists id) : l.Lists id := by
  have hEnter : l.enter ⟨some s, now, stamp, .delete other⟩ = take s now stamp l (.remove other) := rfl
  rw [hEnter, take_remove] at h
  cases hListed : l.listed? s now with
  | none =>
    rw [hListed] at h
    exact (lists_congr rfl).mp h
  | some ids =>
    simp only [hListed] at h
    split at h
    · obtain ⟨k, hIndex, hMem⟩ := h
      cases hIndex
      exact (lists_of_listed? hListed).mpr (List.mem_of_mem_erase hMem)
    · exact (lists_congr rfl).mp h

theorem lists_enter_delete (hOther : other ≠ id) :
    (l.enter ⟨some s, now, stamp, .delete other⟩).Lists id ↔ l.Lists id := by
  refine ⟨lists_of_enter_delete, fun h => ?_⟩
  have hEnter : l.enter ⟨some s, now, stamp, .delete other⟩ = take s now stamp l (.remove other) := rfl
  rw [hEnter, take_remove]
  cases hListed : l.listed? s now with
  | none => exact (lists_congr rfl).mp h
  | some ids =>
    have hMem := (lists_of_listed? hListed).mp h
    simp only
    split
    · exact ⟨_, rfl, (List.mem_erase_of_ne (Ne.symm hOther)).mpr hMem⟩
    · exact (lists_congr rfl).mp h

/-- Only populations, and what is done to the object itself, bear on whether it is listed. -/
theorem lists_enter_of_silent (hPopulates : e.deed.populates = false) (hConcerns : e.deed.concerns id = false) :
    (l.enter e).Lists id ↔ l.Lists id := by
  obtain ⟨store, now, stamp, deed⟩ := e
  cases store with
  | none => exact Iff.rfl
  | some s =>
    cases deed with
    | populate records => cases hPopulates
    | receive records => exact lists_congr index_enter_receive
    | save r =>
      have hId : r.objectId? ≠ some id := by simpa [Deed.concerns] using hConcerns
      rw [lists_enter_save, or_iff_left fun h => hId h.1]
    | update other change => exact lists_congr index_enter_update
    | delete other => exact lists_enter_delete (by simpa [Deed.concerns] using hConcerns)

/-! ### The record under an id -/

theorem record_take_keep : (take s now stamp l (.keep r)).record id =
    if r.objectId? = some id then some ⟨r, stamp⟩ else l.record id := by
  by_cases hId : r.objectId? = some id <;> simp [take, Turn.record?, hId]

theorem record_enter_receive : (l.enter ⟨some s, now, stamp, .receive records⟩).record id =
    ((records.reverse.find? fun r => r.objectId? = some id).map (⟨·, stamp⟩)).or (l.record id) := by
  change ((records.map Turn.keep).foldl (take s now stamp) l).record id = _
  induction records generalizing l with
  | nil => rfl
  | cons r rest ih =>
    rw [List.map_cons, List.foldl_cons, ih, record_take_keep, List.reverse_cons, List.find?_append]
    cases rest.reverse.find? fun r => r.objectId? = some id with
    | some last => rfl
    | none => by_cases hId : r.objectId? = some id <;> simp [hId]

theorem record_enter_populate : (l.enter ⟨some s, now, stamp, .populate records⟩).record id =
    ((records.reverse.find? fun r => r.objectId? = some id).map (⟨·, stamp⟩)).or (l.record id) := by
  simp only [enter, Deed.turns, List.foldl_cons, List.foldl_nil, take, Turn.record?]
  cases records.reverse.find? fun r => r.objectId? = some id <;> rfl

theorem record_enter_save : (l.enter ⟨some s, now, stamp, .save r⟩).record id =
    if r.objectId? = some id then some ⟨r, stamp⟩ else l.record id := by
  change (take s now stamp l (.keep r)).record id = _
  exact record_take_keep

theorem record_enter_update (hKeeps : l.KeepsId ⟨some s, now, stamp, .update other change⟩) :
    (l.enter ⟨some s, now, stamp, .update other change⟩).record id =
      if other = id then ((l.found? s now id).map fun r => ⟨change r, stamp⟩).or (l.record id) else l.record id := by
  change ((((l.found? s now other).map change).toList.map Turn.keep).foldl (take s now stamp) l).record id = _
  cases hFound : l.found? s now other with
  | none =>
    change l.record id = _
    split
    · next hSame =>
      rw [← hSame, hFound]
      rfl
    · rfl
  | some r =>
    have hId := hKeeps s other change r rfl rfl hFound
    change (take s now stamp l (.keep (change r))).record id = _
    rw [record_take_keep, hId]
    by_cases hSame : other = id
    · subst hSame
      simp [hFound]
    · simp [hSame]

theorem record_enter_delete : (l.enter ⟨some s, now, stamp, .delete other⟩).record id =
    if other = id then none else l.record id := by
  by_cases hSame : other = id <;> simp [enter, Deed.turns, take, Turn.record?, hSame]

/-- A record that is there after an entry was there before, or the entry has brought it or changed it. -/
theorem record_enter_cases (hKeeps : l.KeepsId e) {k : Dated Record} (h : (l.enter e).record id = some k) :
    l.record id = some k ∨ (∃ r, e.deed.brings? id = some r ∧ k = ⟨r, e.stamp⟩) ∨
      ∃ s change r, e.store = some s ∧ e.deed = .update id change ∧ l.found? s e.now id = some r ∧
        k = ⟨change r, e.stamp⟩ := by
  obtain ⟨store, now, stamp, deed⟩ := e
  cases store with
  | none => exact .inl h
  | some s =>
    have hBrought {found : Option Record} (hSome : (found.map (⟨·, stamp⟩)).or (l.record id) = some k) :
        l.record id = some k ∨ ∃ r, found = some r ∧ k = ⟨r, stamp⟩ := by
      cases found with
      | none => exact .inl hSome
      | some r => exact .inr ⟨r, rfl, (Option.some.inj hSome).symm⟩
    cases deed with
    | populate records => exact (hBrought (record_enter_populate.symm.trans h)).imp_right .inl
    | receive records => exact (hBrought (record_enter_receive.symm.trans h)).imp_right .inl
    | save r =>
      rw [record_enter_save] at h
      split at h
      · next hId => exact .inr (.inl ⟨r, if_pos hId, (Option.some.inj h).symm⟩)
      · exact .inl h
    | update other change =>
      rw [record_enter_update hKeeps] at h
      split at h
      · next hSame =>
        subst hSame
        cases hFound : l.found? s now other with
        | none =>
          rw [hFound] at h
          exact .inl h
        | some r =>
          rw [hFound] at h
          exact .inr (.inr ⟨s, change, r, rfl, rfl, hFound, (Option.some.inj h).symm⟩)
      · exact .inl h
    | delete other =>
      rw [record_enter_delete] at h
      split at h
      · cases h
      · exact .inl h

end Ledger

end RecordCache.LocalStore
