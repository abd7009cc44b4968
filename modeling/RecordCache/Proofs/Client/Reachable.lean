import RecordCache.Proofs.Client.Turns
import RecordCache.Proofs.LocalStore.Tidy

/-!
# The reachable blobs of a class

Any stores of one class work on its blobs, in any order: records and ids are kept and removed, and populations
replace the snapshot. Time passes, and any access may fail. Starting from nothing the blobs stay tidy, so that
no reader finds a blob that is not what it has to be, and a snapshot holds just the records that are listed.
-/

namespace RecordCache

namespace Session

variable {κ α : Type} {s t : Session κ α} {notify : Notify κ α} {ref : StoreRef} {callback : Option κ}
  {fetch : Work κ α (List Record)}

/-- A population whose callbacks leave the disk alone does nothing to it after a failed fetch; after another
one it replaces the snapshot. -/
theorem disk_populateBy
    (hNotify : ∀ caller outcome s result t, Runs (notify caller outcome) s result t → t.disk = s.disk)
    (hFirst : s.populations.get? ref.number = none) {fetched : Except Error (List Record)} {s₁ : Session κ α}
    (hFetch : Runs fetch { s with populations := s.populations.set ref.number callback.toList } fetched s₁)
    {result : Except Error (Option (List Record))} (h : Runs (populateBy notify ref callback fetch) s result t) :
    match fetched with
    | .ok records => ∃ r, Runs (ref.store.swap records) s₁.disk r t.disk
    | .error _ => t.disk = s₁.disk := by
  obtain ⟨outcome, u, hWork, hDisk, -⟩ := exists_of_populateBy hNotify hFirst h
  rw [hDisk]
  cases fetched with
  | error e =>
    obtain ⟨-, rfl⟩ := hWork.unique (Runs.bind_fail hFetch)
    rfl
  | ok records =>
    obtain ⟨r, disk, hSwap⟩ := Runs.exists_run (ref.store.swap records) s₁.disk
    have hServe : Runs (serve (ref.store.swap records) : Work κ α Unit) s₁ r { s₁ with disk } := runs_serve hSwap
    refine ⟨r, ?_⟩
    cases r with
    | error e =>
      obtain ⟨-, rfl⟩ := hWork.unique (hFetch.bind hServe.bind_fail)
      exact hSwap
    | ok _ =>
      obtain ⟨-, rfl⟩ := hWork.unique (hFetch.bind (hServe.bind (.ret records _)))
      exact hSwap

end Session

namespace LocalStore

variable {s : LocalStore} {className : String} {named : String → Prop} {d d' d₀ : Disk}

inductive Change
  | persist (r : Record) (listed : Bool)
  | enlist (ids : List String)
  | reset (ids : List String)
  | remove (id : String)

namespace Change

def work (s : LocalStore) : Change → Serving Unit
  | persist r listed => s.persist r listed
  | enlist ids => s.enlist (index ids)
  | reset ids => s.resetIndex (index ids)
  | remove id => s.remove (.string id)

def Accepted (named : String → Prop) : Change → Prop
  | persist r _ => Fitting named r
  | enlist ids | reset ids => ∀ id ∈ ids, Names named id
  | remove id => named id

end Change

/-- What may happen to the blobs of a class. -/
inductive Step (className : String) (named : String → Prop) : Disk → Disk → Prop
  | change {d d' : Disk} (s : LocalStore) (c : Change) {r} (hClass : s.className = className)
      (hAccepted : c.Accepted named) (hRun : Runs (c.work s) d r d') : Step className named d d'
  /-- What a population does once its fetch has come to its end. -/
  | populate {κ α : Type} {notify : Notify κ α} {ref : StoreRef} {callback : Option κ}
      {fetch : Work κ α (List Record)} {s s₁ t : Session κ α} {fetched result} (hClass : ref.store.className = className)
      (hNotify : ∀ caller outcome s result t, Runs (notify caller outcome) s result t → t.disk = s.disk)
      (hFirst : s.populations.get? ref.number = none)
      (hFetch : Runs fetch { s with populations := s.populations.set ref.number callback.toList } fetched s₁)
      (hAccepted : ∀ records, fetched = .ok records → ∀ r ∈ records, Fitting named r)
      (hRun : Runs (Session.populateBy notify ref callback fetch) s result t) :
      Step className named s₁.disk t.disk
  /-- Blobs are read, time passes, and the disk begins or ceases to refuse accesses. -/
  | other {d d' : Disk} (hKind : d'.kind = d.kind) (hBlobs : d'.blobs = d.blobs) (hFolders : d'.folders = d.folders) :
      Step className named d d'

theorem Keeps.work (hList : named ".list") {c : Change} (h : c.Accepted named) :
    s.Keeps named (c.work s) fun _ => True := by
  cases c with
  | persist r listed => exact Keeps.persist hList h listed
  | enlist ids => exact Keeps.enlist hList h
  | reset ids => exact Keeps.resetIndex hList h
  | remove id => exact Keeps.remove hList h

theorem Tidy.step (hList : named ".list") (h : Tidy className named d) (hStep : Step className named d d') :
    Tidy className named d' := by
  cases hStep with
  | change s c hClass hAccepted hRun =>
    subst hClass
    exact (Keeps.work hList hAccepted d _ d' h hRun).1
  | @populate κ α notify ref callback fetch s s₁ t fetched result hClass hNotify hFirst hFetch hAccepted hRun =>
    subst hClass
    have hDisk := Session.disk_populateBy hNotify hFirst hFetch hRun
    cases fetched with
    | error e =>
      rw [hDisk]
      exact h
    | ok records =>
      obtain ⟨r, hSwap⟩ := hDisk
      exact (Keeps.swap hList (hAccepted records rfl) _ r _ h hSwap).1
  | other hKind hBlobs hFolders => exact h.of_same hKind hBlobs hFolders

theorem Tidy.steps (hList : named ".list") (h : Tidy className named d)
    (hSteps : Relation.ReflTransGen (Step className named) d d') : Tidy className named d' := by
  induction hSteps with
  | refl => exact h
  | tail _ hStep ih => exact ih.step hList hStep

/-- What readers find. -/
structure ReadsTidy (s : LocalStore) (named : String → Prop) (d : Disk) : Prop where
  ids : ∀ e d', Runs s.listIds d (.error e) d' → isMisfit e = false
  record : ∀ id e d', Names named id → Runs (s.get (.string id)) d (.error e) d' → isMisfit e = false
  snapshot : ∀ records d', Runs s.loadAll d (.ok records) d' →
    ∃ ids, Runs s.listIds d (.ok ids) d.counted ∧ ids.Nodup ∧ records.map Record.objectId? = ids.map some

theorem Tidy.readsTidy (hList : named ".list") (h : Tidy s.className named d) : s.ReadsTidy named d where
  ids e d' hRun := by
    obtain ⟨-, ⟨_, hError, hOther⟩ | ⟨_, _, -, -, -, -, hOk⟩⟩ := h.listIds hList hRun
    · cases hError
      exact hOther
    · cases hOk
  record id e d' hId hRun := by
    obtain ⟨-, ⟨_, hError, hOther⟩ | ⟨_, hOk, -⟩⟩ := h.get hId hRun
    · cases hError
      exact hOther
    · cases hOk
  snapshot records d' hRun := h.loadAll hList hRun

/-- Where the ids are names that the disk bears, whatever happens to the blobs of a class leaves them tidy. In
memory and in a table these are all texts. -/
theorem tidy_of_steps (hEmpty : ∀ key, d₀.blob className key = none) (hList : d₀.Bears className ".list")
    (hSteps : Relation.ReflTransGen (Step className (d₀.Bears className)) d₀ d) :
    Tidy className (d₀.Bears className) d ∧
      ∀ s : LocalStore, s.className = className → s.ReadsTidy (d₀.Bears className) d := by
  have hStart : Tidy className (d₀.Bears className) d₀ := by
    refine ⟨fun _ hKey => hKey, fun key stored hStored => ?_⟩
    rw [hEmpty] at hStored
    cases hStored
  have hTidy := hStart.steps hList hSteps
  refine ⟨hTidy, fun s hClass => ?_⟩
  subst hClass
  exact hTidy.readsTidy hList

def notes : LocalStore := ⟨"Note", .int 60⟩

def note (id : String) : Record := .ofFields [("objectId", .string id)]

/-- A table that refuses its third access. -/
def shaky : Disk := { kind := .table, fails := fun _ n => n = 2 }

def after (d : Disk) (c : Change) : Disk := ((c.work notes).run.run d).2

theorem bears_shaky (id : String) : shaky.Bears "Note" id := Disk.bears_of_kind (by decide) _ _

theorem fitting_note {id : String} (hApart : id ≠ ".list") : Fitting (shaky.Bears "Note") (note id) :=
  ⟨id, ⟨_, by rfl, rfl, rfl⟩, bears_shaky id, hApart⟩

theorem step_after (d : Disk) {c : Change} (h : c.Accepted (shaky.Bears "Note")) :
    Step "Note" (shaky.Bears "Note") d (after d c) := .change notes c rfl h rfl

/-- A record is kept and listed; another one is refused, and is not listed either. -/
theorem tidy_of_steps_shaky :
    (∀ key, shaky.blob "Note" key = none) ∧ shaky.Bears "Note" ".list" ∧
      ∃ d, Relation.ReflTransGen (Step "Note" (shaky.Bears "Note")) shaky d ∧
        Tidy "Note" (shaky.Bears "Note") d ∧ notes.ReadsTidy (shaky.Bears "Note") d ∧
        (notes.loadAll.run.run d).1.toOption.map (·.map Record.objectId?) = some [some "./a"] := by
  have hEmpty : ∀ key, shaky.blob "Note" key = none := fun _ => rfl
  have hReset : Change.Accepted (shaky.Bears "Note") (.reset ["./a"]) := by
    simpa [Change.Accepted, Names] using bears_shaky "./a"
  have hKeep : Change.Accepted (shaky.Bears "Note") (.persist (note "./a") false) := fitting_note (by decide)
  have hRefused : Change.Accepted (shaky.Bears "Note") (.persist (note "b") true) := fitting_note (by decide)
  have hSteps := ((Relation.ReflTransGen.single (step_after shaky hReset)).tail (step_after _ hKeep)).tail
    (step_after _ hRefused)
  obtain ⟨hTidy, hReads⟩ := tidy_of_steps hEmpty (bears_shaky ".list") hSteps
  exact ⟨hEmpty, bears_shaky _, _, hSteps, hTidy, hReads notes rfl, by decide +kernel⟩

/-- Two ids that lead to one file: what is found under the first is the record of the second. -/
theorem get_sharesFile :
    ∃ r d, Runs (do notes.persist (note "a") false; notes.persist (note "./a") false; notes.get (.string "a"))
      ({ kind := .files } : Disk) (.ok r) d ∧ r.objectId? = some "./a" := by
  let work : Serving Record := do
    notes.persist (note "a") false
    notes.persist (note "./a") false
    notes.get (.string "a")
  have hFound : (work.run.run ({ kind := .files } : Disk)).1.toOption.bind Record.objectId? = some "./a" := by
    decide +kernel
  obtain ⟨result, d, hRun⟩ := Runs.exists_run work { kind := .files }
  rw [show work.run.run ({ kind := .files } : Disk) = (result, d) from hRun] at hFound
  obtain ⟨r, hResult, hId⟩ := Option.bind_eq_some_iff.mp hFound
  rw [Except.toOption_eq_some_iff] at hResult
  subst hResult
  exact ⟨r, d, hRun, hId⟩

end LocalStore

end RecordCache
