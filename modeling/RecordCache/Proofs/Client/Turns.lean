import RecordCache.Client.Writing
import RecordCache.Proofs.Client.Fallback
import RecordCache.Proofs.Client.Populate
import RecordCache.Proofs.LocalStore.Turns

/-!
# The turns of a client

What creating, changing and deleting an object does to the cache of its class, and what a population or a
batch does when its answer is there: these turns and no others.
-/

namespace RecordCache.Session

open LocalStore (Turn Serving)

variable {κ α β γ : Type} {s t : Session κ α} {b : Batch} {className id : String} {turns : β → List Turn}

/-- From one session to the other, the cache of a class has gone through these turns. -/
def Does (s t : Session κ α) (className : String) (turns : List Turn) : Prop :=
  match (s.registry.store className .null).1 with
  | some ref => ref.store.Happens s.disk turns t.disk
  | none => t.disk = s.disk

/-- Whenever the work returns, it has gone through these turns. -/
def Performs (work : Work κ α β) (className : String) (turns : β → List Turn) : Prop :=
  ∀ s result t, Runs work s (.ok result) t → Does s t className (turns result)

/-- Work that has nothing to do with the cache. -/
def Aside (work : Work κ α β) : Prop :=
  ∀ s result t, Runs work s result t → t.disk = s.disk ∧ t.registry = s.registry

theorem exists_of_bind {first : Work κ α γ} {next : γ → Work κ α β} {result : β}
    (h : Runs (first >>= next) s (.ok result) t) :
    ∃ a s', Runs first s (.ok a) s' ∧ Runs (next a) s' (.ok result) t := by
  obtain hRuns | ⟨e, hError, -⟩ := Runs.bind_iff.mp h
  · exact hRuns
  · cases hError

theorem run_of_set {u : Session κ α} {next : PUnit → Work κ α β} {result : Except Error β}
    (h : Runs (set u >>= next) s result t) : Runs (next ⟨⟩) u result t := h

theorem run_of_attempt {work : Work κ α γ} {next : Except Error γ → Work κ α β} {result : Except Error β}
    (h : Runs (attempt work >>= next) s result t) :
    ∃ r s', Runs work s r s' ∧ Runs (next r) s' result t := by
  obtain ⟨r, s', hWork⟩ := Runs.exists_run work s
  obtain ⟨result', t', hNext⟩ := Runs.exists_run (next r) s'
  obtain ⟨rfl, rfl⟩ := h.unique ((runs_attempt hWork).bind hNext)
  exact ⟨r, s', hWork, hNext⟩

theorem exists_of_serve {serving : Serving β} {result : Except Error β}
    (h : Runs (serve serving : Work κ α β) s result t) :
    ∃ disk, Runs serving s.disk result disk ∧ t = { s with disk } := by
  obtain ⟨r, disk, hServing⟩ := Runs.exists_run serving s.disk
  obtain ⟨rfl, rfl⟩ := h.unique (runs_serve hServing)
  exact ⟨disk, hServing, rfl⟩

namespace Aside

theorem ofExcept (r : Except Error β) : Aside (Session.ofExcept r : Work κ α β) :=
  Moves.ofExcept (fun _ => ⟨rfl, rfl⟩) r

theorem send (call : Call) : Aside (Session.send call : Work κ α Json) :=
  Moves.of_runs fun s => ⟨_, _, runs_send_reply call s, rfl, rfl⟩

theorem field? (answer : Json) (key : String) : Aside (Session.field? answer key : Work κ α (Option Json)) := by
  cases answer with
  | object fields => exact ofExcept (.ok (Assoc.get? fields key))
  | _ => exact ofExcept (.error (.data .notObject))

theorem requireField (answer : Json) (key : String) : Aside (Session.requireField answer key : Work κ α Json) := by
  cases answer with
  | object fields =>
    rw [Session.requireField]
    cases Assoc.get? fields key with
    | some value => exact ofExcept (.ok value)
    | none => exact ofExcept (.error (.data (.missing key)))
  | _ => exact ofExcept (.error (.data .notIndexed))

theorem bind {first : Work κ α γ} {next : γ → Work κ α β} (h : Aside first) (hNext : ∀ a, Aside (next a)) :
    Aside (first >>= next) := Moves.bind (fun _ _ _ h h' => ⟨h'.1.trans h.1, h'.2.trans h.2⟩) h hNext

theorem sendNew (b : Batch) : Aside (Session.sendNew b : Work κ α Record) :=
  (ofExcept _).bind fun _ => (ofExcept _).bind fun _ => (send _).bind fun answer => (ofExcept _).bind fun _ =>
    (requireField answer _).bind fun _ => (field? answer _).bind fun _ => (field? answer _).bind fun _ =>
    ofExcept (.ok _)

theorem discard {first : Work κ α γ} (h : Aside first) : Aside (Functor.discard first) := Moves.map _ h

theorem forM {tell : γ → Work κ α Unit} (h : ∀ x, Aside (tell x)) (xs : List γ) : Aside (xs.forM tell) :=
  Moves.forM (fun _ => ⟨rfl, rfl⟩) (fun _ _ _ h h' => ⟨h'.1.trans h.1, h'.2.trans h.2⟩) h xs

theorem performs {first : Work κ α γ} {next : γ → Work κ α β} (h : Aside first)
    (hNext : ∀ a, Performs (next a) className turns) : Performs (first >>= next) className turns := by
  intro s result t hRun
  obtain ⟨a, s', hFirst, hRest⟩ := exists_of_bind hRun
  obtain ⟨hDisk, hRegistry⟩ := h _ _ _ hFirst
  have hDoes := hNext a _ _ _ hRest
  rwa [Does, hDisk, hRegistry] at hDoes

end Aside

theorem performs_known {a : γ} {next : γ → Work κ α β} (h : Performs (next a) className turns) :
    Performs (ofExcept (.ok a) >>= next) className turns := by
  intro s result t hRun
  obtain ⟨a', s', hFirst, hRest⟩ := exists_of_bind hRun
  obtain ⟨hSame, rfl⟩ := hFirst.unique (runs_ofExcept _ s)
  cases hSame
  exact h _ _ _ hRest

/-- What is done with the store of a class, if it has one. -/
theorem performs_ownStore {next : Option StoreRef → Work κ α β}
    (hNone : ∀ s result t, Runs (next none) s (.ok result) t → t.disk = s.disk)
    (hSome : ∀ ref s result t, Runs (next (some ref)) s (.ok result) t →
      ref.store.Happens s.disk (turns result) t.disk) :
    Performs (ownStore className >>= next) className turns := by
  intro s result t hRun
  obtain ⟨ref?, s', hStore, hRest⟩ := exists_of_bind hRun
  obtain ⟨hRef, rfl⟩ := hStore.unique (runs_store className .null s)
  rw [Does]
  cases hFound : (s.registry.store className .null).1 with
  | none =>
    rw [hFound, Except.ok.injEq] at hRef
    subst hRef
    have hDisk := hNone _ _ _ hRest
    exact hDisk
  | some ref =>
    rw [hFound, Except.ok.injEq] at hRef
    subst hRef
    have hHappens := hSome _ _ _ _ hRest
    exact hHappens

theorem performs_create (b : Batch) :
    Performs (create b : Work κ α Record) b.className fun r => [.create r] := by
  refine (Aside.sendNew b).performs fun record => ?_
  rw [keepNew, bind_assoc]
  refine performs_ownStore ?_ ?_
  · intro s r t hRun
    obtain ⟨-, rfl⟩ := hRun.unique (.bind (.ret _ s) (.ret _ s))
    rfl
  · intro ref s r t hRun
    obtain ⟨_, _, hServe, hRet⟩ := exists_of_bind hRun
    obtain ⟨disk, hPersist, rfl⟩ := exists_of_serve hServe
    obtain ⟨hSame, rfl⟩ := hRet.unique (.ret _ _)
    cases hSame
    exact .cons hPersist (.nil _)

theorem performs_updateCached (b : Batch) (id : String) (answer : Json) :
    Performs (updateCached b (.string id) answer : Work κ α (Option Record)) b.className fun found =>
      .look id found.isSome :: found.toList.map .keep := by
  rw [updateCached]
  refine performs_ownStore ?_ ?_
  · intro s found t hRun
    obtain ⟨-, rfl⟩ := hRun.unique (.ret _ s)
    rfl
  · intro ref s found t hRun
    obtain ⟨cached, s₁, hServe, hRest⟩ := exists_of_bind hRun
    obtain ⟨disk, hLook, rfl⟩ := exists_of_serve hServe
    cases cached with
    | none =>
      obtain ⟨hSame, rfl⟩ := hRest.unique (.ret none _)
      cases hSame
      exact .cons ⟨none, hLook, rfl⟩ (.nil _)
    | some cached =>
      obtain ⟨raw, s₂, hRaw, hRest⟩ := exists_of_bind hRest
      obtain ⟨-, rfl⟩ := hRaw.unique (runs_ofExcept _ _)
      obtain ⟨time, s₃, hTime, hRest⟩ := exists_of_bind hRest
      obtain ⟨-, rfl⟩ := hTime.unique (runs_ofExcept _ _)
      obtain ⟨_, s₄, hServe, hRet⟩ := exists_of_bind hRest
      obtain ⟨disk', hKeep, rfl⟩ := exists_of_serve hServe
      obtain ⟨hSame, rfl⟩ := hRet.unique (.ret _ _)
      cases hSame
      exact .cons ⟨some cached, hLook, rfl⟩ (.cons hKeep (.nil _))

theorem existing_eq (hId : b.objectId = .string id) (action : String) :
    b.existing action = .ok (.string id) := by
  rw [Batch.existing, hId]
  rfl

theorem performs_update (hId : b.objectId = .string id) :
    Performs (update b : Work κ α (Option Record)) b.className fun found =>
      .look id found.isSome :: found.toList.map .keep := by
  rw [update, existing_eq hId]
  refine performs_known ((Aside.ofExcept _).performs fun body => (Aside.send _).performs fun answer => ?_)
  intro s found t hRun
  obtain ⟨kept, s₁, hUpdate, hRest⟩ := exists_of_bind hRun
  obtain ⟨hSame, rfl⟩ := hRest.unique (.bind (.alter _ _) (.ret kept _))
  cases hSame
  have hDoes := performs_updateCached b id answer _ _ _ hUpdate
  exact hDoes

theorem performs_delete (hId : b.objectId = .string id) :
    Performs (delete b : Work κ α Unit) b.className fun _ => [.remove id] := by
  rw [delete, existing_eq hId]
  refine performs_known ((Aside.send _).discard.performs fun _ => performs_ownStore ?_ ?_)
  · intro s _ t hRun
    obtain ⟨-, rfl⟩ := hRun.unique (.alter _ s)
    rfl
  · intro ref s _ t hRun
    obtain ⟨_, _, hServe, hRest⟩ := exists_of_bind hRun
    obtain ⟨disk, hRemove, rfl⟩ := exists_of_serve hServe
    obtain ⟨-, rfl⟩ := hRest.unique (.alter _ _)
    exact .cons hRemove (.nil _)

/-! ### Answers -/

theorem happens_keep {q : FetchQueue κ} {store : LocalStore} (hStore : q.store = some store)
    {records : List Record} {d d' : Disk} (h : Runs (q.keep records) d (.ok ()) d') :
    store.Happens d (records.map .keep) d' := by
  rw [FetchQueue.keep, hStore] at h
  induction records generalizing d with
  | nil =>
    obtain ⟨-, rfl⟩ := h.unique (.ret _ _)
    exact .nil _
  | cons r rest ih =>
    obtain ⟨_, d₁, hFirst, hRest⟩ | ⟨e, hError, -⟩ := Runs.bind_iff.mp h
    · exact .cons hFirst (ih hRest)
    · cases hError

theorem disk_of_notify {notify : Notify κ α} {waiting : List κ} {outcome : Delivery}
    (hNotify : ∀ caller s result t, Runs (notify caller outcome) s result t → t.disk = s.disk)
    {result : Except Error Unit} (h : Runs (waiting.forM fun caller => notify caller outcome) s result t) :
    t.disk = s.disk := by
  have hAll := Moves.forM (R := fun (s t : Session κ α) => t.disk = s.disk) (fun _ => rfl)
    (fun _ _ _ h h' => h'.trans h) hNotify waiting
  exact hAll _ _ _ h

section Populations

variable {notify : Notify κ α} {ref : StoreRef} {callback : Option κ} {fetch : Work κ α (List Record)}

/-- A population that finds no other one in flight fetches and replaces the snapshot; callbacks that leave the
disk alone change nothing about that. -/
theorem exists_of_populateBy
    (hNotify : ∀ caller outcome s result t, Runs (notify caller outcome) s result t → t.disk = s.disk)
    (hFirst : s.populations.get? ref.number = none) {result : Except Error (Option (List Record))}
    (h : Runs (populateBy notify ref callback fetch) s result t) :
    ∃ outcome u,
      Runs (do let records ← fetch; serve (ref.store.swap records); return records)
        { s with populations := s.populations.set ref.number callback.toList } outcome u ∧
      t.disk = u.disk ∧ ∀ found, result = .ok found → some <$> outcome = .ok found := by
  have hRest := Runs.of_get h
  rw [hFirst] at hRest
  obtain ⟨outcome, u, hWork, hRest⟩ := run_of_attempt (run_of_set hRest)
  refine ⟨outcome, u, hWork, ?_⟩
  obtain ⟨_, s', hTold, hEnd⟩ | ⟨e, rfl, hTold⟩ := Runs.bind_iff.mp (run_of_set (Runs.of_get hRest))
  · have hDisk := disk_of_notify (hNotify · _) hTold
    obtain ⟨rfl, rfl⟩ := hEnd.unique ((runs_ofExcept outcome s').map some)
    exact ⟨hDisk, fun found hFound => hFound⟩
  · have hDisk := disk_of_notify (hNotify · _) hTold
    exact ⟨hDisk, fun found hFound => nomatch hFound⟩

/-- A population replaces the snapshot once it has its answer, whatever went on while it was fetched. -/
theorem takes_populateBy {records : List Record}
    (hNotify : ∀ caller outcome s result t, Runs (notify caller outcome) s result t → t.disk = s.disk)
    (h : Runs (populateBy notify ref callback fetch) s (.ok (some records)) t) :
    ∃ fetched, Runs fetch { s with populations := s.populations.set ref.number callback.toList } (.ok records)
        fetched ∧ ref.store.Takes fetched.disk (.replace records) t.disk := by
  cases hFlying : s.populations.get? ref.number with
  | some waiting =>
    -- one who joins another population gets no records
    have hRest := Runs.of_get h
    rw [hFlying] at hRest
    obtain ⟨hNothing, -⟩ := hRest.unique (.bind (.put _ s) (.ret none _))
    cases hNothing
  | none =>
    obtain ⟨outcome, u, hWork, hDisk, hResult⟩ := exists_of_populateBy hNotify hFlying h
    obtain ⟨_, rfl, hSame⟩ := Except.map_eq_ok.mp (hResult _ rfl)
    cases hSame
    obtain ⟨_, t₁, hFetch, hRest⟩ := exists_of_bind hWork
    obtain ⟨_, t₂, hServe, hRet⟩ := exists_of_bind hRest
    obtain ⟨disk, hSwap, rfl⟩ := exists_of_serve hServe
    obtain ⟨hSame, rfl⟩ := hRet.unique (.ret _ _)
    cases hSame
    rw [hDisk]
    exact ⟨t₁, hFetch, hSwap⟩

end Populations

end RecordCache.Session
