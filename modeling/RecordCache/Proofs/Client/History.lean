import RecordCache.Proofs.Client.Creating
import RecordCache.Proofs.Client.Registry
import RecordCache.Proofs.LocalStore.Entries

/-!
# The history of a class

The calls of a client one after another, and what each of them enters in the ledger of a class. As long as the disk
refuses nothing, the blobs of the class are those of the ledger after every history.
-/

namespace RecordCache

/-- The record as the batch changes it, at the time that the answer gives. -/
def Batch.changed (b : Batch) (answer : Json) (r : Record) : Except DataFault Record := do
  let raw ← b.apply r.raw
  let time ← Session.updateTime? answer
  return Record.merged { raw } (time.toList.map fun t => ("updatedAt", t))

/-- The record stays as it is where the batch cannot change it. -/
def Batch.change (b : Batch) (answer : Json) (r : Record) : Record := (b.changed answer r).toOption.getD r

theorem Batch.eq_of_existing (b : Batch) {action : String} {id : Json} (h : b.existing action = .ok id) :
    id = b.objectId := by
  rw [existing] at h
  split at h <;> cases h
  rfl

namespace Session

open LocalStore (Deed Entry Healthy Ledger Turn)

variable {κ α β γ : Type}

variable {notify : Notify κ α} {c id : String} {s t start : Session κ α} {b : Batch} {entries : List Entry} {l : Ledger}
  {deed : Deed} {r : Record} {records : List Record} {answer : Json}

/-- The store that a class has, while it is cached. -/
def classStore (s : Session κ α) (c : String) : Option LocalStore :=
  (s.registry.windows.get? c).map (LocalStore.mk c)

/-- What is done now. -/
def entry (s : Session κ α) (c : String) (deed : Deed) : Entry := ⟨s.classStore c, s.disk.now, s.disk.stamp, deed⟩

/-- The blobs of the class stay as they are, and the disk and the registry stay in order. -/
structure Spares (c : String) (s t : Session κ α) : Prop where
  blob : ∀ key, t.disk.blob c key = s.disk.blob c key
  bears : ∀ key, s.disk.Bears c key → t.disk.Bears c key
  healthy : Healthy c s.disk → Healthy c t.disk
  registry : s.registry.Consistent → t.registry.Consistent

theorem disk_of_told (hNotify : ∀ caller outcome, Aside (notify caller outcome)) (caller : κ) (outcome : Delivery)
    (s : Session κ α) (result : Except Error Unit) (t : Session κ α) (hRun : Runs (notify caller outcome) s result t) :
    t.disk = s.disk := (hNotify caller outcome s result t hRun).1

namespace Spares

theorem of_accesses (hDisk : ∃ k, t.disk = { s.disk with accesses := k })
    (hRegistry : s.registry.Consistent → t.registry.Consistent) : Spares c s t := by
  obtain ⟨k, hDisk⟩ := hDisk
  refine ⟨?_, ?_, ?_, hRegistry⟩ <;> rw [hDisk]
  · exact fun _ => rfl
  · exact fun key hBears => hBears.of_same rfl rfl rfl
  · exact fun h => ⟨h.obeys, h.room, h.index.of_same rfl rfl rfl⟩

theorem advance (c : String) (s : Session κ α) (seconds : Float) :
    Spares c s { s with disk := s.disk.advance seconds } where
  blob _ := rfl
  bears _ hBears := hBears.of_same rfl rfl rfl
  healthy h := ⟨h.obeys, h.room, h.index.of_same rfl rfl rfl⟩
  registry h := h

theorem register {className : String} {window : Json} {result : Except Error Unit}
    (hRun : Runs (Session.register className window) s result t) : Spares c s t := by
  refine .of_accesses ⟨s.disk.accesses, ?_⟩ (KeepsRegistry.register className window _ _ _ hRun)
  obtain ⟨registry, s', hRegister, hSet⟩ | ⟨e, -, hRegister⟩ := Runs.bind_iff.mp (Runs.of_get hRun)
  · obtain ⟨-, rfl⟩ := hRegister.unique (runs_ofExcept _ _)
    obtain ⟨-, rfl⟩ := hSet.unique (.put _ _)
    rfl
  · obtain ⟨-, rfl⟩ := hRegister.unique (runs_ofExcept _ _)
    rfl

theorem data {q : Query} {result : Except Error Answer} (hRun : Runs (Session.data q) s result t) : Spares c s t :=
  .of_accesses (onlyReads_data q _ _ _ hRun) (KeepsRegistry.spreads.data q _ _ _ hRun)

theorem count {q : Query} {result : Except Error Json} (hRun : Runs (Session.count q) s result t) : Spares c s t :=
  .of_accesses (onlyReads_count q _ _ _ hRun) (KeepsRegistry.spreads.count q _ _ _ hRun)

/-- A population whose fetch fails writes nothing. -/
theorem populateBy {ref : StoreRef} {callback : Option κ} {fetch : Work κ α (List Record)} {e : Error}
    {result : Except Error (Option (List Record))} {u : Session κ α}
    (hNotify : ∀ caller outcome, Aside (notify caller outcome)) (hReads : OnlyReads fetch)
    (hKeeps : KeepsRegistry fetch) (hFirst : s.populations.get? ref.number = none)
    (hFetch : Runs fetch { s with populations := s.populations.set ref.number callback.toList } (.error e) u)
    (hRun : Runs (Session.populateBy notify ref callback fetch) s result t) : Spares c s t := by
  obtain ⟨outcome, left, hWork, hDisk, -⟩ := exists_of_populateBy (disk_of_told hNotify) hFirst hRun
  obtain ⟨-, rfl⟩ := hWork.unique hFetch.bind_fail
  obtain ⟨k, hRead⟩ := hReads _ _ _ hFetch
  exact .of_accesses ⟨k, hDisk.trans hRead⟩ (KeepsRegistry.populateBy hNotify ref callback hKeeps _ _ _ hRun)

end Spares

/-! ### Requests that fail -/

/-- The next request fails if it is this one. -/
def Refuses (s : Session κ α) (call : Call) : Prop := ∀ result t, Runs (send call) s result t → ∃ e, result = .error e

/-- The session is as it was, but for a request that was made. -/
def OnlyAsked (s t : Session κ α) : Prop := ∃ calls server, t = { s with calls, server }

/-- Work that fails when these requests do, and has then done no more than to make one of them. -/
def Stops (requests : Call → Prop) (work : Work κ α β) : Prop :=
  ∀ s result t, (∀ call, requests call → s.Refuses call) → Runs work s result t →
    (∃ e, result = .error e) ∧ s.OnlyAsked t

/-- The requests of a batch that sends its operations somewhere. -/
def Sends (b : Batch) (method path : String) (call : Call) : Prop :=
  ∃ body, b.compose = .ok body ∧ call = .request method path (some (.object body))

namespace Stops

variable {requests : Call → Prop}

theorem spares {work : Work κ α β} {result : Except Error β} (h : Stops requests work)
    (hRefused : ∀ call, requests call → s.Refuses call) (hRun : Runs work s result t) : Spares c s t := by
  obtain ⟨-, calls, server, rfl⟩ := h _ _ _ hRefused hRun
  exact .of_accesses ⟨s.disk.accesses, rfl⟩ id

theorem known {known : Except Error γ} {next : γ → Work κ α β} (h : ∀ a, known = .ok a → Stops requests (next a)) :
    Stops requests (ofExcept known >>= next) := by
  intro s result t hRefused hRun
  obtain ⟨a, s', hFirst, hRest⟩ | ⟨e, rfl, hFirst⟩ := Runs.bind_iff.mp hRun
  · obtain ⟨hKnown, rfl⟩ := hFirst.unique (runs_ofExcept _ _)
    exact h a hKnown.symm _ _ _ hRefused hRest
  · obtain ⟨-, rfl⟩ := hFirst.unique (runs_ofExcept _ _)
    exact ⟨⟨e, rfl⟩, t.calls, t.server, rfl⟩

theorem sending {call : Call} (h : requests call) : Stops requests (send call : Work κ α Json) := by
  intro s result t hRefused hRun
  exact ⟨hRefused call h _ _ hRun, s.calls ++ [call], s.server.tail, (hRun.unique (runs_send_reply call s)).2⟩

theorem before {first : Work κ α γ} (h : Stops requests first) (next : γ → Work κ α β) :
    Stops requests (first >>= next) := by
  intro s result t hRefused hRun
  obtain ⟨a, s', hFirst, -⟩ | ⟨e, rfl, hFirst⟩ := Runs.bind_iff.mp hRun
  · obtain ⟨⟨e, hError⟩, -⟩ := h _ _ _ hRefused hFirst
    cases hError
  · exact ⟨⟨e, rfl⟩, (h _ _ _ hRefused hFirst).2⟩

theorem sendNew (b : Batch) :
    Stops (Sends b "POST" (Schema.path b.className .null)) (Session.sendNew b : Work κ α Record) :=
  known fun _ _ => known fun body hBody => (sending ⟨body, Except.mapError_eq_ok.mp hBody, rfl⟩).before _

theorem create (b : Batch) :
    Stops (Sends b "POST" (Schema.path b.className .null)) (Session.create b : Work κ α Record) :=
  (sendNew b).before _

theorem update (b : Batch) :
    Stops (Sends b "PUT" (Schema.path b.className b.objectId)) (Session.update b : Work κ α (Option Record)) := by
  refine known fun id hId => known fun body hBody => (sending ?_).before _
  rw [b.eq_of_existing hId]
  exact ⟨body, Except.mapError_eq_ok.mp hBody, rfl⟩

theorem delete (b : Batch) :
    Stops (· = .request "DELETE" (Schema.path b.className b.objectId) none) (Session.delete b : Work κ α Unit) := by
  refine known fun id hId => ((sending ?_).before _).before _
  rw [b.eq_of_existing hId]
  rfl

end Stops

/-! ### Calls one after another -/

/-- What the server says to a batch that changes an object. -/
def Answers (s : Session κ α) (b : Batch) (answer : Json) : Prop :=
  ∃ body t, b.compose = .ok body ∧
    Runs (request "PUT" (Schema.path b.className b.objectId) (some body)) s (.ok answer) t

/-- The batch that waits in a queue has these records as its answer, and the queue keeps them in this store. -/
def Receives (s : Session κ α) (n : Nat) (store : LocalStore) (records : List Record) : Prop :=
  ∃ q ids t, s.queues[n]? = some q ∧ q.store = some store ∧ q.pending.isEmpty = false ∧
    FetchQueue.batchIds q.pending = .ok ids ∧ Runs (fetchByIds q ids) (drain n s) (.ok records) t

/-- Calls that return one after another, with what they enter in the ledger of the class. Queries, new windows, the time
that passes, requests that fail and whatever else leaves the class as it is enter nothing. -/
inductive History (notify : Notify κ α) (c : String) (start : Session κ α) : List Entry → Session κ α → Prop
  | start : History notify c start [] start
  | create {entries : List Entry} {s t : Session κ α} {b : Batch} {r : Record} (h : History notify c start entries s)
    (hClass : b.className = c) (hRun : Runs (create b) s (.ok r) t)
    (hAccepted : (s.entry c (.save r)).Accepted s.disk) : History notify c start (entries ++ [s.entry c (.save r)]) t
  | update {entries : List Entry} {s t : Session κ α} {b : Batch} {id : String} {answer : Json} {found : Option Record}
    (h : History notify c start entries s) (hClass : b.className = c) (hId : b.objectId = .string id)
    (hRun : Runs (update b) s (.ok found) t) (hAnswers : s.Answers b answer)
    (hAccepted : (s.entry c (.update id (b.change answer))).Accepted s.disk) :
    History notify c start (entries ++ [s.entry c (.update id (b.change answer))]) t
  | delete {entries : List Entry} {s t : Session κ α} {b : Batch} {id : String} (h : History notify c start entries s)
    (hClass : b.className = c) (hId : b.objectId = .string id) (hRun : Runs (delete b) s (.ok ()) t)
    (hAccepted : (s.entry c (.delete id)).Accepted s.disk) :
    History notify c start (entries ++ [s.entry c (.delete id)]) t
  | populate {entries : List Entry} {s t : Session κ α} {callback : Option κ} {records : List Record}
    (h : History notify c start entries s) (hRest : s.populations = [])
    (hRun : Runs (populate notify c callback) s (.ok records) t)
    (hAccepted : (s.entry c (.populate records)).Accepted s.disk) :
    History notify c start (entries ++ [s.entry c (.populate records)]) t
  | receive {entries : List Entry} {s t : Session κ α} {n : Nat} {store : LocalStore} {records : List Record}
    (h : History notify c start entries s) (hClass : store.className = c) (hReceives : s.Receives n store records)
    (hRun : Runs (flush notify fetchByIds n) s (.ok ()) t)
    (hAccepted : Entry.Accepted ⟨some store, s.disk.now, s.disk.stamp, .receive records⟩ s.disk) :
    History notify c start (entries ++ [⟨some store, s.disk.now, s.disk.stamp, .receive records⟩]) t
  | other {entries : List Entry} {s t : Session κ α} (h : History notify c start entries s) (hSpares : Spares c s t) :
    History notify c start entries t

/-- The blobs of the class are those of the ledger, and the disk and the registry are in order. -/
structure Booked (c : String) (l : Ledger) (s : Session κ α) : Prop where
  describes : l.Describes c s.disk
  healthy : Healthy c s.disk
  registry : s.registry.Consistent

namespace Booked

theorem spares (h : Booked c l s) (hSpares : Spares c s t) : Booked c l t :=
  ⟨h.describes.of_same hSpares.blob hSpares.bears, hSpares.healthy h.healthy, hSpares.registry h.registry⟩

theorem of_leaves (hLeaves : l.Leaves c s.disk t.disk) (hRegistry : t.registry.Consistent) : Booked c l t :=
  ⟨hLeaves.describes, hLeaves.healthy, hRegistry⟩

theorem leaves {e : Entry} (h : Booked c l s) (hNow : e.now = s.disk.now) (hStamp : e.stamp = s.disk.stamp)
    (hClass : ∀ store, e.store = some store → store.className = c)
    (hWindow : ∀ store, e.store = some store → ∀ turn ∈ e.deed.turns (store.found? s.disk), turn.reads = true →
      store.window.numeric?.isSome)
    (hAccepted : e.Accepted s.disk) (hDone : e.Done s.disk t.disk) : (l.enter e).Leaves c s.disk t.disk := by
  obtain ⟨store, now, stamp, deed⟩ := e
  cases hNow
  cases hStamp
  cases store with
  | none =>
    change t.disk = s.disk at hDone
    rw [hDone]
    exact ⟨h.describes, h.healthy, rfl, rfl, rfl, fun _ hBears => hBears⟩
  | some store =>
    obtain rfl := hClass store rfl
    exact Ledger.leaves_enter hDone h.describes h.healthy (hAccepted.turns store rfl) (hWindow store rfl)

theorem leaves_entry (h : Booked c l s) (hAccepted : (s.entry c deed).Accepted s.disk)
    (hDone : (s.entry c deed).Done s.disk t.disk) : (l.enter (s.entry c deed)).Leaves c s.disk t.disk := by
  have hOwn {store : LocalStore} (hStore : s.classStore c = some store) :
      store.className = c ∧ store.window.numeric?.isSome := by
    obtain ⟨window, hWindow, rfl⟩ := Option.map_eq_some_iff.mp hStore
    exact ⟨rfl, h.registry.numbers c window hWindow⟩
  exact h.leaves rfl rfl (fun store hStore => (hOwn hStore).1) (fun store hStore _ _ _ => (hOwn hStore).2) hAccepted
    hDone

end Booked

/-! ### What the calls do -/

theorem classStore_eq (h : s.registry.Consistent) :
    s.classStore c = (s.registry.store c .null).1.map StoreRef.store := (h.ownStore c).2.symm

theorem exists_ownStore {store : LocalStore} (h : s.registry.Consistent) (hStore : s.classStore c = some store) :
    ∃ ref, (s.registry.store c .null).1 = some ref ∧ ref.store = store ∧ store.className = c ∧
      store.window.numeric?.isSome := by
  obtain ⟨ref, hRef, hSame⟩ := Option.map_eq_some_iff.mp ((classStore_eq h).symm.trans hStore)
  obtain ⟨window, hWindow, rfl⟩ := Option.map_eq_some_iff.mp hStore
  exact ⟨ref, hRef, hSame, rfl, h.numbers _ _ hWindow⟩

theorem runs_keepNew_none (h : s.registry.Consistent) (hStore : s.classStore c = none) (r : Record) :
    Runs (keepNew c r) s (.ok ()) { s with registry := (s.registry.store c .null).2 } := by
  have hOwn := runs_store c .null s
  rw [Option.map_eq_none_iff.mp ((classStore_eq h).symm.trans hStore)] at hOwn
  exact .bind hOwn (.ret _ _)

theorem runs_keepNew {store : LocalStore} (h : s.registry.Consistent) (hStore : s.classStore c = some store)
    (hHealthy : Healthy c s.disk) (hId : r.objectId? = some id) (hWritable : r.json.isWritable = true)
    (hBears : s.disk.Bears c id) :
    ∃ t, Runs (keepNew c r) s (.ok ()) t ∧
      t.disk = store.enlisted (s.disk.written c id (.document r.json)) id := by
  obtain ⟨ref, hRef, rfl, rfl, hWindow⟩ := exists_ownStore h hStore
  have hOwn := runs_store ref.store.className .null s
  rw [hRef] at hOwn
  exact ⟨_, .bind hOwn (runs_serve (LocalStore.runs_create hHealthy hId hWritable hBears hWindow)), rfl⟩

theorem done_of_does {turns : List Turn} (h : s.registry.Consistent) (hDoes : Does s t c turns)
    (hTurns : ∀ store, s.classStore c = some store → turns = deed.turns (store.found? s.disk)) :
    (s.entry c deed).Done s.disk t.disk := by
  have hStore := classStore_eq (c := c) h
  rw [Does] at hDoes
  rw [Entry.Done, entry]
  cases hRef : (s.registry.store c .null).1 with
  | none =>
    rw [hRef] at hDoes hStore
    rw [hStore]
    exact hDoes
  | some ref =>
    rw [hRef] at hDoes hStore
    rw [hStore]
    rw [hTurns ref.store hStore] at hDoes
    exact hDoes

/-- What an update gives is the record that its store has found, as the batch changes it. -/
theorem found_of_updateCached {ref : StoreRef} {found : Option Record}
    (hRun : Runs (updateCached b (.string id) answer) s (.ok found) t)
    (hRef : (s.registry.store b.className .null).1 = some ref) :
    ∃ cached disk, Runs (LocalStore.whenServed (ref.store.get (.string id))) s.disk (.ok cached) disk ∧
      found = cached.map (b.change answer) := by
  rw [updateCached] at hRun
  obtain ⟨own, s₁, hStore, hRest⟩ := exists_of_bind hRun
  obtain ⟨hOwn, rfl⟩ := hStore.unique (runs_store b.className .null s)
  rw [hRef, Except.ok.injEq] at hOwn
  subst hOwn
  obtain ⟨cached, s₂, hServe, hRest⟩ := exists_of_bind hRest
  obtain ⟨disk, hLook, rfl⟩ := exists_of_serve hServe
  refine ⟨cached, disk, hLook, ?_⟩
  cases cached with
  | none =>
    obtain ⟨hSame, -⟩ := hRest.unique (.ret none _)
    exact Except.ok.inj hSame
  | some cached =>
    obtain ⟨raw, s₃, hRaw, hRest⟩ := exists_of_bind hRest
    obtain ⟨hApplied, rfl⟩ := hRaw.unique (runs_ofExcept _ _)
    obtain ⟨time, s₄, hTime, hRest⟩ := exists_of_bind hRest
    obtain ⟨hTold, rfl⟩ := hTime.unique (runs_ofExcept _ _)
    obtain ⟨_, s₅, -, hRet⟩ := exists_of_bind hRest
    obtain ⟨hSame, -⟩ := hRet.unique (.ret _ _)
    have hChanged : b.changed answer cached =
        .ok (Record.merged { raw } (time.toList.map fun t => ("updatedAt", t))) := by
      rw [Batch.changed, Except.mapError_eq_ok.mp hApplied.symm, Except.mapError_eq_ok.mp hTold.symm]
      rfl
    rw [Except.ok.inj hSame, Option.map_some, Batch.change, hChanged]
    rfl

/-! ### The blobs after a history -/

section Calls

variable (h : Booked c l s)
include h

theorem booked_create (hClass : b.className = c) (hRun : Runs (create b) s (.ok r) t)
    (hAccepted : (s.entry c (.save r)).Accepted s.disk) : Booked c (l.enter (s.entry c (.save r))) t := by
  subst hClass
  have hDoes := performs_create b _ _ _ hRun
  exact .of_leaves (h.leaves_entry hAccepted (done_of_does h.registry hDoes fun _ _ => rfl))
    (KeepsRegistry.create b _ _ _ hRun h.registry)

/-- Once the server has sent all records on one page, they are the snapshot. -/
theorem runs_populate (notify : Notify κ α) {answer : Call → Except Error Json}
    {rest : List (Call → Except Error Json)} {items : List Json} {size : Number} {store : LocalStore}
    (hRest : s.populations = []) (hStore : s.classStore c = some store) (hServer : s.server = answer :: rest)
    (hAnswer : ∀ call, answer call = .ok (.object [("results", .array items)]))
    (hRecords : items.mapM Record.ofJson = .ok records) (hSize : s.pageSize.numeric? = some size)
    (hShort : (Number.int records.length).less size = true)
    (hAccepted : (s.entry c (.populate records)).Accepted s.disk) :
    ∃ calls disk, Runs (populate notify c none) s (.ok records)
      { s with disk, calls, registry := (s.registry.store c .null).2, server := rest } ∧
      (l.enter (s.entry c (.populate records))).Leaves c s.disk disk := by
  obtain ⟨ref, hRef, rfl⟩ := Option.map_eq_some_iff.mp ((classStore_eq h.registry).symm.trans hStore)
  obtain ⟨window, hWindow, hSame⟩ := Option.map_eq_some_iff.mp hStore
  let waiting := { s with registry := (s.registry.store c .null).2, populations := s.populations.set ref.number [] }
  obtain ⟨calls, hFetch⟩ : ∃ calls,
      Runs (fetchAll ⟨c, []⟩) waiting (.ok records) { waiting with server := rest, calls } :=
    runs_fetchAll_onePage rfl hServer hAnswer hRecords hSize hShort
  obtain ⟨ids, hAccepts, hIds, hNodup, hList⟩ := hAccepted.turns ref.store hStore (.replace records) List.mem_cons_self
  rw [← hSame] at hAccepts
  obtain ⟨disk, hSwap, hLeaves⟩ := Ledger.leaves_replace h.describes h.healthy hAccepts hIds hNodup hList
  rw [hSame] at hSwap
  have hEntry : s.entry c (.populate records) = ⟨some ref.store, s.disk.now, s.disk.stamp, .populate records⟩ := by
    rw [entry, hStore]
  refine ⟨calls, disk, ?_, ?_⟩
  rotate_left
  · rw [hEntry, ← hSame]
    exact hLeaves
  have hStored := runs_store c .null s
  rw [hRef] at hStored
  have hFirst : s.populations.get? ref.number = none := by
    rw [hRest]
    rfl
  have hLast : (s.populations.set ref.number []).erase ref.number = s.populations := by
    rw [hRest]
    simp [Assoc.set, Assoc.erase]
  have hFetched : Runs (attempt do
      let records ← fetchAll ⟨c, []⟩
      serve (ref.store.swap records)
      return records) waiting (.ok (.ok records)) { waiting with server := rest, calls, disk } :=
    runs_attempt (hFetch.bind ((runs_serve (s := { waiting with server := rest, calls }) hSwap).bind (.ret _ _)))
  refine .bind hStored (.bind (a := some records) ?_ (.ret _ _))
  rw [populateBy]
  refine .bind (.state _) ?_
  simp only [hFirst]
  refine .bind (.put _ _) (.bind hFetched (.bind (.state _) (.bind (.put _ _) ?_)))
  have hWaiting : (s.populations.set ref.number []).get? ref.number = some ([] : List κ) := by
    rw [Assoc.get?_set, if_pos rfl]
  simp only [waiting, hWaiting, Population.complete, Option.getD_some, hLast]
  exact .bind (.ret PUnit.unit _) (.ret (some records) _)

theorem runs_create {body fields : Fields Json} {raw : Keyed Json} {own : Json} {answer : Call → Except Error Json}
    (hClass : b.className = c) (hNew : b.requireNew = .ok ()) (hBody : b.compose = .ok body)
    (hRaw : b.apply [] = .ok raw) (hServer : s.server.head? = some answer)
    (hAnswer : answer (.request "POST" (Schema.path b.className .null) (some (.object body))) = .ok (.object fields))
    (hOwn : Assoc.get? fields "objectId" = some own)
    (hRecord : r = Record.merged { raw } [("objectId", own), ("createdAt", (Assoc.get? fields "createdAt").getD .null),
      ("updatedAt", (Assoc.get? fields "updatedAt").getD ((Assoc.get? fields "createdAt").getD .null))])
    (hAccepted : (s.entry c (.save r)).Accepted s.disk) :
    ∃ t, Runs (create b) s (.ok r) t ∧ (l.enter (s.entry c (.save r))).Leaves c s.disk t.disk := by
  subst hClass
  have hReply : s.reply (creation b.className body) = .ok (.object fields) := by
    rw [reply, hServer]
    exact hAnswer
  obtain ⟨u, hSent⟩ : ∃ u, Runs (sendNew b) s (.ok r) u := by
    have hCreated := runs_sendNew hNew hBody hRaw s
    rw [hReply] at hCreated
    change Runs _ _ (Record.merged { raw } <$> newFields (.object fields)) _ at hCreated
    rw [newFields, hOwn] at hCreated
    rw [hRecord]
    exact ⟨_, hCreated⟩
  obtain ⟨hDisk, hRegistry⟩ := Aside.sendNew b _ _ _ hSent
  obtain ⟨t, hKept⟩ : ∃ t, Runs (keepNew b.className r) u (.ok ()) t := by
    cases hStore : u.classStore b.className with
    | none => exact ⟨_, runs_keepNew_none (hRegistry ▸ h.registry) hStore r⟩
    | some store =>
      have hOwnStore : s.classStore b.className = some store := by rw [← hStore, classStore, classStore, hRegistry]
      obtain ⟨id, hr⟩ := hAccepted.turns store hOwnStore (.create r) List.mem_cons_self
      obtain ⟨window, -, rfl⟩ := Option.map_eq_some_iff.mp hStore
      obtain ⟨t, hKept, -⟩ := runs_keepNew (hRegistry ▸ h.registry) hStore (hDisk ▸ h.healthy) hr.objectId
        hr.isWritable (hDisk ▸ hr.bears)
      exact ⟨t, hKept⟩
  have hRun : Runs (create b) s (.ok r) t := hSent.bind (hKept.bind (.ret r t))
  have hDoes := performs_create b _ _ _ hRun
  exact ⟨t, hRun, h.leaves_entry hAccepted (done_of_does h.registry hDoes fun _ _ => rfl)⟩

theorem found_of_update {store : LocalStore} {found : Option Record} (hClass : b.className = c)
    (hId : b.objectId = .string id) (hRun : Runs (update b) s (.ok found) t) (hAnswers : s.Answers b answer)
    (hStore : s.classStore c = some store) (hBears : s.disk.Bears store.className id) :
    found = (store.found? s.disk id).map (b.change answer) := by
  subst hClass
  obtain ⟨window, hWindow, rfl⟩ := Option.map_eq_some_iff.mp hStore
  obtain ⟨ref, hRef, hSame⟩ := Option.map_eq_some_iff.mp ((classStore_eq h.registry).symm.trans hStore)
  obtain ⟨body, u, hBody, hPut⟩ := hAnswers
  rw [hId] at hPut
  rw [update, existing_eq hId] at hRun
  obtain ⟨own, s₁, hExisting, hRun⟩ := exists_of_bind hRun
  obtain ⟨hOwn, rfl⟩ := hExisting.unique (runs_ofExcept _ _)
  cases hOwn
  obtain ⟨composed, s₂, hCompose, hRun⟩ := exists_of_bind hRun
  obtain ⟨hComposed, rfl⟩ := hCompose.unique (runs_ofExcept _ _)
  cases hBody.symm.trans (Except.mapError_eq_ok.mp hComposed.symm)
  obtain ⟨told, s₃, hSend, hRun⟩ := exists_of_bind hRun
  obtain ⟨hTold, -⟩ := hSend.unique hPut
  cases hTold
  obtain ⟨hDisk, hRegistry⟩ := Aside.send _ _ _ _ hSend
  obtain ⟨kept, s₄, hUpdate, hRun⟩ := exists_of_bind hRun
  obtain ⟨hKept, -⟩ := hRun.unique (.bind (.alter _ _) (.ret kept _))
  cases hKept
  rw [← hRegistry] at hRef
  obtain ⟨cached, disk, hLook, rfl⟩ := found_of_updateCached hUpdate hRef
  rw [hDisk, hSame] at hLook
  obtain ⟨hCached, -⟩ := hLook.unique (LocalStore.runs_look (h.registry.numbers _ _ hWindow) h.healthy hBears)
  cases hCached
  rfl

theorem booked_delete (hClass : b.className = c) (hId : b.objectId = .string id) (hRun : Runs (delete b) s (.ok ()) t)
    (hAccepted : (s.entry c (.delete id)).Accepted s.disk) : Booked c (l.enter (s.entry c (.delete id))) t := by
  subst hClass
  have hDoes := performs_delete hId _ _ _ hRun
  exact .of_leaves (h.leaves_entry hAccepted (done_of_does h.registry hDoes fun _ _ => rfl))
    (KeepsRegistry.delete b _ _ _ hRun h.registry)

theorem booked_update {found : Option Record} (hClass : b.className = c) (hId : b.objectId = .string id)
    (hRun : Runs (update b) s (.ok found) t) (hAnswers : s.Answers b answer)
    (hAccepted : (s.entry c (.update id (b.change answer))).Accepted s.disk) :
    Booked c (l.enter (s.entry c (.update id (b.change answer)))) t := by
  subst hClass
  have hDoes := performs_update hId _ _ _ hRun
  refine .of_leaves (h.leaves_entry hAccepted (done_of_does h.registry hDoes fun store hStore => ?_))
    (KeepsRegistry.update b _ _ _ hRun h.registry)
  have hFound := found_of_update h rfl hId hRun hAnswers hStore
    (hAccepted.turns store hStore (.look id (store.found? s.disk id).isSome) List.mem_cons_self).1
  subst hFound
  simp only [Deed.turns, Option.isSome_map]

theorem booked_populate (hNotify : ∀ caller outcome, Aside (notify caller outcome)) {callback : Option κ}
    (hRest : s.populations = []) (hRun : Runs (populate notify c callback) s (.ok records) t)
    (hAccepted : (s.entry c (.populate records)).Accepted s.disk) :
    Booked c (l.enter (s.entry c (.populate records))) t := by
  have hRegistry := KeepsRegistry.populate hNotify c callback _ _ _ hRun h.registry
  obtain ⟨own, s₁, hStore, hRun⟩ := exists_of_bind hRun
  obtain ⟨hOwn, rfl⟩ := hStore.unique (runs_store c .null s)
  cases hRef : (s.registry.store c .null).1 with
  | none =>
    rw [hRef, Except.ok.injEq] at hOwn
    subst hOwn
    obtain ⟨hFails, -⟩ := hRun.unique (.fail _ _)
    cases hFails
  | some ref =>
    rw [hRef, Except.ok.injEq] at hOwn
    subst hOwn
    obtain ⟨found, s₂, hPopulate, hRet⟩ := exists_of_bind hRun
    obtain ⟨hFound, rfl⟩ := hRet.unique (.ret _ _)
    have hFirst : s.populations.get? ref.number = none := by
      rw [hRest]
      rfl
    obtain ⟨outcome, -, -, -, hResult⟩ := exists_of_populateBy (disk_of_told hNotify) (by exact hFirst) hPopulate
    obtain ⟨fetched, -, rfl⟩ := Except.map_eq_ok.mp (hResult found rfl)
    obtain rfl : records = fetched := Except.ok.inj hFound
    obtain ⟨u, hFetch, hSwap⟩ := takes_populateBy (disk_of_told hNotify) hPopulate
    obtain ⟨k, hDisk⟩ := OnlyReads.spreads.fetchAll _ _ _ _ hFetch
    -- the fetch has counted accesses; the entry is that of the disk at the swap
    have hFetched : Booked c l { s with disk := u.disk } := h.spares (.of_accesses ⟨k, hDisk⟩ id)
    have hEntry : s.entry c (.populate records) = entry { s with disk := u.disk } c (.populate records) := by
      rw [entry, entry, hDisk]
      rfl
    have hCounted : (entry { s with disk := u.disk } c (.populate records)).Accepted u.disk := by
      rw [← hEntry, hDisk]
      exact hAccepted.recounted k
    have hStore : s.classStore c = some ref.store := by rw [classStore_eq h.registry, hRef, Option.map_some]
    have hDone : (entry { s with disk := u.disk } c (.populate records)).Done u.disk t.disk := by
      have hHappens : ref.store.Happens u.disk [.replace records] t.disk := .cons hSwap (.nil _)
      rw [← hEntry, Entry.Done, entry, hStore]
      exact hHappens
    rw [hEntry]
    exact .of_leaves (hFetched.leaves_entry hCounted hDone) hRegistry

theorem booked_receive {n : Nat} {store : LocalStore} (hClass : store.className = c)
    (hReceives : s.Receives n store records) (hRun : Runs (flush notify fetchByIds n) s (.ok ()) t)
    (hNotify : ∀ caller outcome, Aside (notify caller outcome))
    (hAccepted : Entry.Accepted ⟨some store, s.disk.now, s.disk.stamp, .receive records⟩ s.disk) :
    Booked c (l.enter ⟨some store, s.disk.now, s.disk.stamp, .receive records⟩) t := by
  obtain ⟨q, ids, u, hQueue, hStore, hPending, hIds, hFetch⟩ := hReceives
  have hRegistry := KeepsRegistry.flush hNotify (fun q ids => KeepsRegistry.spreads.fetchMany q.className ids) n _ _ _
    hRun h.registry
  have hRest := Runs.of_get hRun
  rw [hQueue] at hRest
  obtain ⟨_, s₁, hDrain, hRest⟩ := exists_of_bind hRest
  obtain ⟨-, rfl⟩ := hDrain.unique (.alter _ s)
  rw [hPending] at hRest
  obtain ⟨asked, s₂, hAsked, hRest⟩ := exists_of_bind hRest
  obtain ⟨hAsked, rfl⟩ := hAsked.unique (runs_ofExcept _ _)
  rw [hIds] at hAsked
  cases hAsked
  obtain ⟨outcome, s₃, hFetched, hRest⟩ := run_of_attempt hRest
  obtain ⟨rfl, rfl⟩ := hFetched.unique hFetch
  obtain ⟨_, s₄, hServe, hRest⟩ := exists_of_bind hRest
  obtain ⟨disk, hKeep, rfl⟩ := exists_of_serve hServe
  have hTold := (Aside.forM (fun request => hNotify request.2 _) q.pending _ _ _ hRest).1
  obtain ⟨k, hDisk⟩ := OnlyReads.spreads.fetchMany _ _ _ _ _ hFetch
  have hFetched : Booked c l { s with disk := s₃.disk } := h.spares (.of_accesses ⟨k, hDisk⟩ id)
  have hNow : s₃.disk.now = s.disk.now := by rw [hDisk]; rfl
  have hStamp : s₃.disk.stamp = s.disk.stamp := by rw [hDisk]; rfl
  refine .of_leaves (hFetched.leaves (by exact hNow.symm) (by exact hStamp.symm) ?_ ?_ ?_ ?_) hRegistry
  · rintro _ ⟨⟩
    exact hClass
  · intro _ _ turn hTurn hReads
    obtain ⟨r, -, rfl⟩ := List.mem_map.mp hTurn
    cases hReads
  · change Entry.Accepted _ s₃.disk
    rw [hDisk]
    exact hAccepted.recounted k
  · change store.Happens s₃.disk (records.map .keep) t.disk
    rw [hTold]
    exact happens_keep hStore hKeep

end Calls

theorem keepsId_of_accepted {e : Entry} (h : Booked c l s) (hNow : e.now = s.disk.now)
    (hClass : ∀ store, e.store = some store → store.className = c) (hAccepted : e.Accepted s.disk) : l.KeepsId e := by
  intro store id change r hStore hDeed hFound
  obtain rfl := hClass store hStore
  have hLook : (store.found? s.disk id) = some r := by
    have hApart : id ≠ ".list" := by
      have hTurns := hAccepted.turns store hStore
      rw [hDeed] at hTurns
      exact (hTurns _ List.mem_cons_self).2
    rw [h.describes.found?_eq hApart, ← hNow]
    exact hFound
  exact hAccepted.id store id change r hStore hDeed hLook

/-- A class of which there is no blob yet. -/
structure Unused (c : String) (s : Session κ α) : Prop where
  blob : ∀ key, s.disk.blob c key = none
  healthy : Healthy c s.disk
  registry : s.registry.Consistent

theorem Unused.booked (h : Unused c s) : Booked c {} s where
  describes :=
    { index := h.blob _
      record := fun id _ => h.blob id
      nodup := nofun
      bears := nofun
      own := nofun }
  healthy := h.healthy
  registry := h.registry

/-- After every history the blobs of the class are those of its ledger. -/
theorem History.booked (hNotify : ∀ caller outcome, Aside (notify caller outcome)) (hStart : Unused c start)
    (h : History notify c start entries s) : Booked c (Ledger.ofEntries entries) s ∧ Ledger.Kept entries := by
  have hOwn {s : Session κ α} (deed : Deed) : ∀ store, (s.entry c deed).store = some store → store.className = c := by
    intro store hStore
    obtain ⟨window, -, rfl⟩ := Option.map_eq_some_iff.mp hStore
    rfl
  -- each call books its own entry on what the calls before it have left
  induction h with
  | start => exact ⟨hStart.booked, .nil⟩
  | create h hClass hRun hAccepted ih =>
    rw [Ledger.ofEntries_concat]
    exact ⟨booked_create ih.1 hClass hRun hAccepted, ih.2.concat (keepsId_of_accepted ih.1 rfl (hOwn _) hAccepted)⟩
  | update h hClass hId hRun hAnswers hAccepted ih =>
    rw [Ledger.ofEntries_concat]
    exact ⟨booked_update ih.1 hClass hId hRun hAnswers hAccepted,
      ih.2.concat (keepsId_of_accepted ih.1 rfl (hOwn _) hAccepted)⟩
  | delete h hClass hId hRun hAccepted ih =>
    rw [Ledger.ofEntries_concat]
    exact ⟨booked_delete ih.1 hClass hId hRun hAccepted,
      ih.2.concat (keepsId_of_accepted ih.1 rfl (hOwn _) hAccepted)⟩
  | populate h hRest hRun hAccepted ih =>
    rw [Ledger.ofEntries_concat]
    exact ⟨booked_populate ih.1 hNotify hRest hRun hAccepted,
      ih.2.concat (keepsId_of_accepted ih.1 rfl (hOwn _) hAccepted)⟩
  | receive h hClass hReceives hRun hAccepted ih =>
    rw [Ledger.ofEntries_concat]
    refine ⟨booked_receive ih.1 hClass hReceives hRun hNotify hAccepted,
      ih.2.concat (keepsId_of_accepted ih.1 rfl ?_ hAccepted)⟩
    rintro _ ⟨⟩
    exact hClass
  | other h hSpares ih => exact ⟨ih.1.spares hSpares, ih.2⟩

end Session

end RecordCache
