import RecordCache.Fetch.Queue
import RecordCache.Proofs.LocalStore.Faults

/-!
# What a batch asks for and gives

Whatever the disk does, a look up finds a record or does not, and what was fetched is put into the cache
or given up. A batch asks for each id once, and `Settles` tells what its outcome is for a request.
-/

namespace RecordCache

namespace FetchQueue

open LocalStore (Serving idJson addId)

variable {κ : Type} {q : FetchQueue κ}

/-- The queue tells fresh records from stale ones. -/
def Timed (q : FetchQueue κ) : Prop := ∀ s, q.store = some s → s.window.numeric?.isSome

theorem exists_lookUp (hTimed : q.Timed) (id : Json) (d : Disk) :
    ∃ found d', Runs (q.lookUp id) d (.ok found) d' := by
  rw [lookUp]
  cases hStore : q.store with
  | none => exact ⟨none, d, .ret _ _⟩
  | some s =>
    have hAge := LocalStore.tellsAge_of_numeric (hTimed s hStore)
    exact (LocalStore.FailsSoftly.get hAge id).exists_whenServed d

/-- What the store of the class gives for an id, which is nothing when that fails or there is no store. -/
def Finds (q : FetchQueue κ) (id : Json) (d : Disk) (found : Option Record) (d' : Disk) : Prop :=
  match q.store with
  | none => found = none ∧ d' = d
  | some s => ∃ r, Runs (s.get id) d r d' ∧ found = r.toOption

theorem finds_of_lookUp {id : Json} {d d' : Disk} {found : Option Record}
    (h : Runs (q.lookUp id) d (.ok found) d') : q.Finds id d found d' := by
  rw [lookUp] at h
  rw [Finds]
  cases hStore : q.store with
  | none =>
    rw [hStore] at h
    obtain ⟨hFound, hSame⟩ := h.unique (.ret none d)
    exact ⟨Except.ok.inj hFound, hSame⟩
  | some s =>
    rw [hStore] at h
    obtain ⟨r, d₁, hGet⟩ := Runs.exists_run (s.get id) d
    obtain ⟨hFound, rfl⟩ := h.unique (LocalStore.runs_whenServed hGet)
    refine ⟨r, hGet, ?_⟩
    cases r with
    | ok record => exact Except.ok.inj hFound
    | error e =>
      rw [LocalStore.served] at hFound
      split at hFound
      · exact Except.ok.inj hFound
      · cases hFound

theorem exists_keep (q : FetchQueue κ) {records : List Record} (h : ∀ r ∈ records, r.json.isWritable = true)
    (d : Disk) : ∃ d', Runs (q.keep records) d (.ok ()) d' := by
  rw [keep]
  cases q.store with
  | none => exact ⟨d, .ret _ _⟩
  | some s =>
    change ∃ d', Runs (records.forM fun r => s.persist r false) d (.ok ()) d'
    induction records generalizing d with
    | nil => exact ⟨d, .ret _ _⟩
    | cons r rest ih =>
      obtain ⟨d₁, hFirst⟩ := LocalStore.exists_persist (s := s) (h r List.mem_cons_self) d
      obtain ⟨d₂, hRest⟩ := ih (fun other hOther => h other (List.mem_cons_of_mem _ hOther)) d₁
      rw [List.forM]
      exact ⟨d₂, hFirst.bind hRest⟩

theorem keep_congr {q' : FetchQueue κ} (hStore : q'.store = q.store) (records : List Record) :
    q'.keep records = q.keep records := by
  rw [keep, keep, hStore]

/-! ### Batches -/

/-- The distinct ids of requests, in the order in which they were first asked for. -/
def distinctIds (requests : List (Json × κ)) : List Json :=
  (requests.map Prod.fst).eraseDupsBy fun id earlier => earlier.alike id

theorem foldl_addId_eq (requests : List (Json × κ)) (ids : List Json) :
    requests.foldl (fun ids request => addId ids request.1) ids =
      List.eraseDupsBy.loop (fun id earlier => earlier.alike id) (requests.map Prod.fst) ids.reverse := by
  induction requests generalizing ids with
  | nil => rw [List.foldl_nil, List.map_nil, List.eraseDupsBy.loop, List.reverse_reverse]
  | cons request rest ih =>
    rw [List.foldl_cons, ih, List.map_cons, List.eraseDupsBy.loop, List.any_reverse, addId, Json.among]
    cases ids.any fun item => item.alike request.1 with
    | true => rfl
    | false =>
        rw [if_neg Bool.false_ne_true, List.reverse_append, List.reverse_singleton, List.singleton_append]

theorem batchIds_eq {requests : List (Json × κ)} (h : ∀ request ∈ requests, request.1.isScalar = true) :
    batchIds requests = .ok (distinctIds requests) := by
  rw [batchIds, if_pos (List.all_eq_true.mpr h), foldl_addId_eq]
  rfl

theorem distinctIds_ne_nil {requests : List (Json × κ)} (h : requests ≠ []) :
    distinctIds requests ≠ [] := by
  obtain ⟨request, rest, rfl⟩ := List.exists_cons_of_ne_nil h
  rw [distinctIds, List.map_cons, List.eraseDupsBy_cons]
  exact List.cons_ne_nil _ _

theorem outcome_congr {q' : FetchQueue κ} (hClass : q'.className = q.className)
    (fetched : Except Error (List Record))
    (id : Json) : q'.outcome fetched id = q.outcome fetched id := by
  rw [outcome, outcome, hClass]

/-- What a request for an id is to get when a fetch fails, or comes to records. -/
inductive Settles (className : String) (id : Json) : Except Error (List Record) → Except Error Record → Prop
  | failed (e : Error) : Settles className id (.error e) (.error e)
  | last (before after : List Record) (r : Record) (hId : (idJson r).same id = true)
      (hLast : ∀ other ∈ after, (idJson other).same id = false) :
      Settles className id (.ok (before ++ r :: after)) (.ok r)
  | absent (records : List Record) (hNone : ∀ r ∈ records, (idJson r).same id = false) :
      Settles className id (.ok records)
        (.error (.server (.objectNotFound (className ++ "/" ++ id.plainDisplay ++ " not found"))))

theorem outcome_ok (q : FetchQueue κ) (records : List Record) (id : Json) :
    q.outcome (.ok records) id =
      match records.reverse.find? fun r => (idJson r).same id with
      | some r => .ok r
      | none =>
          .error (.server (.objectNotFound (q.className ++ "/" ++ id.plainDisplay ++ " not found"))) := rfl

theorem settles_outcome (q : FetchQueue κ) (fetched : Except Error (List Record)) (id : Json) :
    Settles q.className id fetched (q.outcome fetched id) := by
  cases fetched with
  | error e => exact .failed e
  | ok records =>
    rw [outcome_ok]
    cases hFind : records.reverse.find? fun r => (idJson r).same id with
    | none =>
      refine .absent records fun r hr => ?_
      simpa using List.find?_eq_none.mp hFind r (List.mem_reverse.mpr hr)
    | some r =>
      obtain ⟨hId, after, before, hSplit, hAfter⟩ := List.find?_eq_some_iff_append.mp hFind
      have hRecords : records = before.reverse ++ r :: after.reverse := by
        rw [← List.reverse_reverse records, hSplit]
        simp
      rw [hRecords]
      refine .last _ _ r hId fun other hOther => ?_
      simpa using hAfter other (List.mem_reverse.mp hOther)

end FetchQueue

end RecordCache
