import RecordCache.Proofs.LocalStore.Faults
import RecordCache.Proofs.LocalStore.Turns

/-!
# Writes while a read is in flight

A population or a batch whose answer is older than a write still takes its turn, and may do so behind the
write. In the end the store reflects the write exactly when no later turn said otherwise: a saved object is
listed unless a snapshot came without it, an updated one carries the update unless an old record came in,
and a deleted one is gone unless its record came back.
-/

namespace RecordCache.LocalStore

variable {s : LocalStore} {d d₁ d' : Disk} {id : String} {turns before after : List Turn} {landing : Turn}

/-- A write that the server has accepted; a record carries an update or not. -/
inductive Write
  | save (id : String)
  | update (id : String) (carries : Record → Prop)
  | delete (id : String)

/-- Whatever is served under an id, by itself or in the snapshot, has the property. -/
structure ServesUnder (s : LocalStore) (d : Disk) (id : String) (p : Record → Prop) : Prop where
  get : ∃ result d', Runs (s.get (.string id)) d result d' ∧ Cached result ∧ ∀ r, result = .ok r → p r
  loadAll : ∃ result d', Runs s.loadAll d result d' ∧ Cached result ∧
    ∀ records, result = .ok records → ∀ r ∈ records, r.objectId? = some id → p r

namespace Write

/-- The turn in which the write reaches the cache. An update of an object that is not cached only looks. -/
def LandsIn : Write → Turn → Prop
  | save id, .create r => r.objectId? = some id
  | update id carries, .keep r => r.objectId? = some id ∧ carries r
  | update id _, .look other hit => other = id ∧ hit = false
  | delete id, .remove other => other = id
  | _, _ => False

def ReflectedIn (s : LocalStore) (d : Disk) : Write → Prop
  | save id => ∃ records d', Runs s.loadAll d (.ok records) d' ∧ ∃ r ∈ records, r.objectId? = some id
  | update id carries => s.ServesUnder d id carries
  | delete id => s.ServesUnder d id fun _ => False

/-- The turns behind the write leave it as it is. A new object needs an index that can be read. -/
def Outlives (readable : Bool) (after : List Turn) : Write → Prop
  | save id => (readable || after.any Turn.replaces) = true ∧ last (Turn.lists? id) after ≠ some false
  | update id carries => ∀ r, last (Turn.record? id) after = some (some r) → carries r
  | delete id => ∀ r, last (Turn.record? id) after ≠ some (some r)

end Write

/-! ### Reading back -/

theorem Sound.runs_loadAll (h : s.Sound d) (hReady : s.Ready d) :
    ∃ n, Runs s.loadAll d (s.allIn d) { d with accesses := n } := by
  apply LocalStore.runs_loadAll hReady.window hReady.index _ (hReady.obeys .read)
  intro ids hIds id hId
  exact (h.serves id ⟨ids, Except.toOption_eq_some_iff.mpr hIds, hId⟩).1

theorem mem_of_allIn {records : List Record} (h : s.allIn d = .ok records) (r : Record) :
    r ∈ records ↔ ∃ id, Lists (s.listed? d) id ∧ s.found? d id = some r := by
  obtain ⟨ids, hIds, hRecords⟩ := Except.bind_eq_ok.mp h
  have hListed : s.listed? d = some ids := Except.toOption_eq_some_iff.mpr hIds
  rw [Except.mem_of_mapM_eq_ok hRecords r]
  constructor
  · rintro ⟨id, hId, hFound⟩
    exact ⟨id, ⟨ids, hListed, hId⟩, found?_eq_some_iff.mpr hFound⟩
  · rintro ⟨id, ⟨listed, hOther, hId⟩, hFound⟩
    rw [hListed, Option.some.injEq] at hOther
    subst hOther
    exact ⟨id, hId, found?_eq_some_iff.mp hFound⟩

/-- A new object is in the snapshot exactly when the index lists it. -/
theorem Sound.loads_iff (h : s.Sound d) (hReady : s.Ready d) :
    (∃ records d', Runs s.loadAll d (.ok records) d' ∧ ∃ r ∈ records, r.objectId? = some id) ↔
      Lists (s.listed? d) id := by
  obtain ⟨n, hRun⟩ := h.runs_loadAll hReady
  constructor
  · rintro ⟨records, d', hLoad, r, hr, hId⟩
    have hAll := (hRun.unique hLoad).1
    obtain ⟨other, hLists, hFound⟩ := (mem_of_allIn hAll r).mp hr
    obtain ⟨-, -, served, hServed, hOwn⟩ := h.serves other hLists
    rw [hFound, Option.some.injEq] at hServed
    subst hServed
    rw [hId, Option.some.injEq] at hOwn
    rwa [hOwn]
  · rintro ⟨ids, hIds, hId⟩
    have hAll : ∃ records, s.allIn d = .ok records := by
      have hRecords : ∀ other ∈ ids, ∃ r, s.recordIn d other = .ok r := by
        intro other hOther
        obtain ⟨-, -, r, hFound, -⟩ := h.serves other ⟨ids, hIds, hOther⟩
        exact ⟨r, found?_eq_some_iff.mp hFound⟩
      obtain ⟨records, hRecords⟩ := Except.exists_mapM_eq_ok hRecords
      exact ⟨records, Except.bind_eq_ok.mpr ⟨ids, Except.toOption_eq_some_iff.mp hIds, hRecords⟩⟩
    obtain ⟨records, hAll⟩ := hAll
    obtain ⟨-, -, r, hFound, hOwn⟩ := h.serves id ⟨ids, hIds, hId⟩
    rw [hAll] at hRun
    exact ⟨records, _, hRun, r, (mem_of_allIn hAll r).mpr ⟨id, ⟨ids, hIds, hId⟩, hFound⟩, hOwn⟩

theorem Sound.servesUnder_iff (h : s.Sound d) (hReady : s.Ready d) (hBears : d.Bears s.className id)
    {p : Record → Prop} : s.ServesUnder d id p ↔ ∀ r, s.found? d id = some r → p r := by
  have hGet := runs_get hReady.window hBears (hReady.obeys .read _)
  have hAge := tellsAge_of_numeric hReady.window
  constructor
  · rintro ⟨⟨result, d', hRun, -, hServes⟩, -⟩ r hFound
    apply hServes
    rw [(hRun.unique hGet).1]
    exact found?_eq_some_iff.mp hFound
  · intro hFound
    obtain ⟨n, hLoad⟩ := h.runs_loadAll hReady
    refine ⟨⟨_, _, hGet, cached_recordIn s d id, ?_⟩, ⟨_, _, hLoad, FailsSoftly.loadAll hAge _ _ _ hLoad, ?_⟩⟩
    · intro r hr
      exact hFound r (found?_eq_some_iff.mpr hr)
    · intro records hAll r hr hId
      obtain ⟨other, hLists, hOther⟩ := (mem_of_allIn hAll r).mp hr
      obtain ⟨-, -, served, hServed, hOwn⟩ := h.serves other hLists
      rw [hOther, Option.some.injEq] at hServed
      subst hServed
      rw [hId, Option.some.injEq] at hOwn
      subst hOwn
      exact hFound r hOther

/-! ### Writes -/

/-- What is served under an id after a turn and others behind it, when the turn leaves there only what has the
property. -/
theorem Shows.servesUnder_iff {p : Record → Prop} (h : s.Shows d (landing :: after) d')
    (hBears : d.Bears s.className id) (hApart : id ≠ ".list")
    (hLanded : ∀ r, (landing.record? id).getD (s.found? d id) = some r → p r) :
    s.ServesUnder d' id p ↔ ∀ r, last (Turn.record? id) after = some (some r) → p r := by
  rw [h.sound.servesUnder_iff h.ready (h.bears id hBears), h.records id hApart, last_cons]
  cases last (Turn.record? id) after with
  | none =>
    rw [Option.none_or]
    constructor
    · intro _ r hr
      cases hr
    · intro _ r hr
      exact hLanded r hr
  | some found =>
    rw [Option.some_or, Option.getD_some]
    simp only [Option.some.injEq]

/-- Turns follow one another in any order, among them the one in which a write reaches the cache. The store
reflects the write in the end exactly when the turns behind it leave it as it is. -/
theorem reflectedIn_iff_outlives {w : Write} (h : s.Ready d) (hSound : s.Sound d)
    (hAccepted : ∀ t ∈ before ++ landing :: after, t.Accepted s d) (hBefore : s.Happens d before d₁)
    (hAfter : s.Happens d₁ (landing :: after) d') (hLands : w.LandsIn landing) :
    w.ReflectedIn s d' ↔ w.Outlives (s.listed? d₁).isSome after := by
  have hStart := hBefore.shows h hSound fun t ht => hAccepted t (List.mem_append_left _ ht)
  have hRest : ∀ t ∈ landing :: after, t.Accepted s d₁ := by
    intro t ht
    exact (hAccepted t (List.mem_append_right _ ht)).mono hStart.bears
  have hEnd := hAfter.shows hStart.ready hStart.sound hRest
  have hFirst := hRest landing List.mem_cons_self
  cases w with
  | save id =>
    cases landing with
    | create r =>
      have hId : Turn.lists? id (.create r) = some true := if_pos hLands
      have hReadable : ((Turn.create r :: after).any Turn.replaces || (s.listed? d₁).isSome) =
          ((s.listed? d₁).isSome || after.any Turn.replaces) := Bool.or_comm (after.any Turn.replaces) _
      rw [Write.ReflectedIn, hEnd.sound.loads_iff hEnd.ready, hEnd.lists, hEnd.readable, hReadable, last_cons,
        hId, Write.Outlives]
      cases last (Turn.lists? id) after with
      | none => simp
      | some listed => cases listed <;> simp
    | replace _ | keep _ | remove _ | look _ _ | elapse _ => cases hLands
  | update id carries =>
    cases landing with
    | keep r =>
      obtain ⟨hId, hCarries⟩ := hLands
      obtain ⟨own, hr⟩ := hFirst
      cases hId.symm.trans hr.objectId
      apply hEnd.servesUnder_iff hr.bears hr.apart
      intro r' hr'
      rw [Turn.record?, if_pos hId, Option.getD_some, Option.some.injEq] at hr'
      rwa [← hr']
    | look other hit =>
      obtain ⟨rfl, rfl⟩ := hLands
      apply hEnd.servesUnder_iff hFirst.1 hFirst.2
      intro r hr
      -- the update has found nothing
      cases hAfter with
      | cons hTakes _ =>
        have hNone := hTakes.hit_eq hStart.ready hFirst.1
        rw [Turn.record?, Option.getD_none] at hr
        rw [hr] at hNone
        cases hNone
    | replace _ | create _ | remove _ | elapse _ => cases hLands
  | delete id =>
    cases landing with
    | remove other =>
      cases hLands
      apply hEnd.servesUnder_iff hFirst.1 hFirst.2
      intro r hr
      rw [Turn.record?, if_pos rfl, Option.getD_some] at hr
      cases hr
    | replace _ | keep _ | create _ | look _ _ | elapse _ => cases hLands

def tasks : LocalStore := ⟨"Task", .int 60⟩

def task (id : String) : Record := Record.ofFields [("objectId", .string id)]

/-- The snapshot has one task. -/
def oneTask : Disk :=
  { blobs := [(⟨"Task", .string "a"⟩, ⟨.document (task "a").json, 1000.0⟩),
      (⟨"Task", .string ".list"⟩, ⟨.document (index ["a"]), 1000.0⟩)] }

theorem bears_oneTask (key : String) : oneTask.Bears "Task" key := Disk.bears_of_kind (by decide) _ _

theorem ready_oneTask : tasks.Ready oneTask where
  window := rfl
  obeys _ _ := rfl
  room := rfl
  index := bears_oneTask _
  stamp := by decide +kernel

theorem fromDocument_task (id : String) : (task id).FromDocument := ⟨_, by rfl, rfl⟩

theorem listed?_oneTask : tasks.listed? oneTask = some ["a"] := by
  have hIndex : oneTask.blob "Task" ".list" = some ⟨.document (index ["a"]), 1000.0⟩ := rfl
  have hFresh : tasks.outlived (oneTask.now - 1000.0) = false := by decide +kernel
  rw [listed?, idsIn_of_index hIndex, hFresh]
  rfl

theorem sound_oneTask : tasks.Sound oneTask where
  nodup := by simp [listed?_oneTask]
  serves := by
    rintro id ⟨ids, hIds, hId⟩
    rw [listed?_oneTask, Option.some.injEq] at hIds
    subst hIds
    rw [List.mem_singleton] at hId
    subst hId
    exact ⟨bears_oneTask _, by decide, task "a", found?_of_record (fromDocument_task _) rfl (by decide +kernel),
      rfl⟩

/-- While the tasks are fetched, another one is created; the answer comes without it. -/
def createInFlight : List Turn := [.create (task "b"), .replace [task "a"]]

theorem accepted_createInFlight : ∀ t ∈ createInFlight, t.Accepted tasks oneTask := by
  intro t ht
  simp only [createInFlight, List.mem_cons, List.not_mem_nil, or_false] at ht
  rcases ht with rfl | rfl
  · exact ⟨"b", fromDocument_task _, rfl, bears_oneTask _, by decide⟩
  · refine ⟨["a"], ?_, rfl, by decide, by decide⟩
    intro r hr
    rw [List.mem_singleton] at hr
    subst hr
    exact ⟨fromDocument_task _, "a", rfl, bears_oneTask _⟩

theorem happens_createInFlight : ∃ d', tasks.Happens oneTask createInFlight d' := by
  have hCreate := accepted_createInFlight _ List.mem_cons_self
  have hReplace := accepted_createInFlight _ (List.mem_cons_of_mem _ List.mem_cons_self)
  obtain ⟨d₁, hCreated, hLeaves⟩ := exists_takes ready_oneTask hCreate (by simp) (by simp)
  obtain ⟨d', hReplaced, -⟩ := exists_takes hLeaves.ready (hReplace.mono hLeaves.bears) (by simp) (by simp)
  exact ⟨d', .cons hCreated (.cons hReplaced (.nil d'))⟩

theorem reflectedIn_iff_outlives_createInFlight :
    ∃ d', tasks.Happens oneTask createInFlight d' ∧
      ((Write.save "b").ReflectedIn tasks d' ↔
        (Write.save "b").Outlives (tasks.listed? oneTask).isSome [.replace [task "a"]]) := by
  obtain ⟨d', hHappens⟩ := happens_createInFlight
  exact ⟨d', hHappens, reflectedIn_iff_outlives ready_oneTask sound_oneTask accepted_createInFlight (.nil _)
    hHappens rfl⟩

/-- The new task is not among those that are loaded. -/
theorem not_reflectedIn_createInFlight :
    ∃ d', tasks.Happens oneTask createInFlight d' ∧ ¬ (Write.save "b").ReflectedIn tasks d' := by
  obtain ⟨d', hHappens⟩ := happens_createInFlight
  have hEnd := hHappens.shows ready_oneTask sound_oneTask accepted_createInFlight
  refine ⟨d', hHappens, fun hReflected => ?_⟩
  obtain ⟨-, hLast | ⟨hNone, -⟩⟩ := (hEnd.lists "b").mp ((hEnd.sound.loads_iff hEnd.ready).mp hReflected)
  · exact absurd hLast (by decide)
  · exact absurd hNone (by decide)

end RecordCache.LocalStore
