import RecordCache.Proofs.Client.SubQueries
import RecordCache.Proofs.Constraint.Failures
import RecordCache.Proofs.LocalStore.Faults
import RecordCache.Proofs.Query.Pages
import RecordCache.Proofs.Value.Sorting

/-!
# The snapshot, or else one request

A query is answered from the snapshot of its class when that can be read, and by one request when it
cannot: reading is all that a failure of the cache can spoil. A snapshot that was read decides, also when
evaluating the query on its records fails; such a failure is one of their data, and no request is made.
-/

namespace RecordCache

namespace Constraint

section Plain

variable {κ α : Type} (find : Resolver (Work κ α)) (s : Session κ α)

mutual

theorem runs_resolveWith_plain : ∀ {c : Constraint}, hasSubQueries c = false →
    Runs (resolveWith find c) s (.ok c) s
  | .equalTo _ _ _, _ => .ret _ _
  | .greaterThan _ _, _ => .ret _ _
  | .lessThan _ _, _ => .ret _ _
  | .present _ _, _ => .ret _ _
  | .matching _ _, _ => .ret _ _
  | .oneOf _ _, _ => .ret _ _
  | .noneOf _ _, _ => .ret _ _
  | .relatedTo _ _, _ => .ret _ _
  | .either left right, hPlain => by
    rw [hasSubQueries, Bool.or_eq_false_iff] at hPlain
    rw [resolveWith]
    exact (runs_resolveSetWith_plain hPlain.1).bind ((runs_resolveSetWith_plain hPlain.2).bind (.ret _ _))
  | .selected _ _ _, hPlain => by cases hPlain
  | .notSelected _ _ _, hPlain => by cases hPlain

theorem runs_resolveSetWith_plain : ∀ {c : Conjunction Constraint}, setHasSubQueries c = false →
    Runs (resolveSetWith find c) s (.ok c) s
  | ⟨_, _⟩, hPlain => by
    rw [resolveSetWith]
    exact (runs_resolveAllWith_plain hPlain).bind (.ret _ _)

theorem runs_resolveAllWith_plain : ∀ {c : List Constraint}, anyHasSubQueries c = false →
    Runs (resolveAllWith find c) s (.ok c) s
  | [], _ => .ret _ _
  | c :: rest, hPlain => by
    rw [anyHasSubQueries, Bool.or_eq_false_iff] at hPlain
    rw [resolveAllWith]
    exact (runs_resolveWith_plain hPlain.1).bind ((runs_resolveAllWith_plain hPlain.2).bind (.ret _ _))

end

end Plain

end Constraint

namespace Session

variable {κ α : Type} {s t : Session κ α} {q : Query} {call : Call} {fields : Fields Json}

/-! ### From the snapshot -/

/-- The snapshot that the query may use, if it can be read. -/
def snapshotFor (s : Session κ α) (q : Query) : Option (List Record) :=
  if q.allowsLocal then
    (s.registry.store q.conditions.className q.freshness.json).1.bind fun ref =>
      (ref.store.loadAll.run.run s.disk).1.toOption
  else none

/-- The answer of a snapshot. -/
def answerFrom (q : Query) (cached : List Record) : Except Error Answer := do
  let found ← q.conditions.filter cached
  if q.counting then return .counted found.length
  return .found (← q.present found)

theorem answerFrom_found {found shown : List Record} (hCounting : q.counting = false)
    (hFilter : q.conditions.filter cached = .ok found) (hPresent : q.present found = .ok shown) :
    answerFrom q cached = .ok (.found shown) := by
  refine Except.bind_eq_ok.mpr ⟨found, hFilter, ?_⟩
  rw [hCounting, hPresent]
  rfl

/-- How many records of a snapshot match. -/
def countFrom (q : Query) (cached : List Record) : Except Error Json := do
  return .int (← q.conditions.filter cached).length

theorem storeFor_eq (hLocal : q.allowsLocal = true) (className : String) :
    (storeFor className q.freshness : Work κ α (Option StoreRef)) = store className q.freshness.json := by
  rw [Query.allowsLocal] at hLocal
  cases hFreshness : q.freshness with
  | never =>
    rw [hFreshness] at hLocal
    cases hLocal
  | asRegistered => rfl
  | within window => rfl

theorem allowsLocal_conditions (hLocal : q.allowsLocal = true) : q.conditions.allowsLocal = true := by
  rw [Query.allowsLocal] at hLocal
  cases hFreshness : q.freshness <;> rw [hFreshness] at hLocal
  · exact (Bool.and_eq_true_iff.mp hLocal).1
  · cases hLocal
  · exact (Bool.and_eq_true_iff.mp hLocal).1

/-- The store that may answer a query tells the age of what it holds. -/
def TellsAge (s : Session κ α) (q : Query) : Prop :=
  ∀ ref, (s.registry.store q.conditions.className q.freshness.json).1 = some ref → ref.store.TellsAge

theorem runs_matchLocal_plain (hPlain : q.conditions.hasSubQueries = false) (hAge : s.TellsAge q)
    (hLocal : q.allowsLocal = true) :
    ∃ registry disk, Runs (matchLocal q.conditions q.freshness) s
      ((s.snapshotFor q).mapM q.conditions.filter) { s with registry, disk } := by
  have hConditions := allowsLocal_conditions hLocal
  have hStore := runs_store q.conditions.className q.freshness.json s
  rw [← storeFor_eq hLocal] at hStore
  rw [snapshotFor, if_pos hLocal]
  cases hRef : (s.registry.store q.conditions.className q.freshness.json).1 with
  | none =>
    rw [hRef] at hStore
    exact ⟨_, s.disk, runs_matchLocalBy_remote hStore (.inl rfl)⟩
  | some ref =>
    rw [hRef] at hStore
    obtain ⟨r, disk, hLoad⟩ := Runs.exists_run ref.store.loadAll s.disk
    have hRead : (ref.store.loadAll.run.run s.disk).1 = r := congrArg Prod.fst hLoad
    rw [Option.bind_some, hRead]
    cases r with
    | ok cached =>
      refine ⟨(s.registry.store q.conditions.className q.freshness.json).2, disk, ?_⟩
      exact runs_matchLocalBy_resolved hConditions hStore hLoad
        (Constraint.runs_resolveSetWith_plain selectedValues _ hPlain)
    | error e =>
      have hCache := LocalStore.FailsSoftly.loadAll (hAge ref hRef) _ _ _ hLoad e rfl
      refine ⟨(s.registry.store q.conditions.className q.freshness.json).2, disk, ?_⟩
      exact runs_matchLocalBy_unread hConditions hStore hLoad hCache

/-- The answer of the records that were searched, with the sub-queries resolved. -/
theorem runs_runLocal_matched {resolved : ConstraintSet} {cached : List Record} {u : Session κ α}
    (hLocal : q.allowsLocal = true)
    (hMatch : Runs (matchLocal q.conditions q.freshness) s (some <$> resolved.filter cached) u) :
    Runs (runLocal q) s (some <$> answerFrom { q with conditions := resolved } cached) u := by
  rw [runLocal, hLocal, answerFrom]
  cases hFound : resolved.filter cached with
  | error e =>
    rw [hFound] at hMatch
    exact .bind_fail hMatch
  | ok found =>
    rw [hFound] at hMatch
    refine .bind hMatch ?_
    cases hCounting : q.counting with
    | true => exact .ret (some (Answer.counted found.length)) _
    | false =>
      change Runs (ofExcept (q.present found) >>= fun shown => pure (some (Answer.found shown))) _
        (some <$> (q.present found >>= fun shown => pure (Answer.found shown))) _
      cases q.present found with
      | error e => exact .bind_fail (runs_ofExcept _ _)
      | ok shown => exact .bind (runs_ofExcept _ _) (.ret _ _)

theorem runs_runLocal_remote (hLocal : q.allowsLocal = false) (s : Session κ α) :
    Runs (runLocal q) s (.ok none) s := by
  rw [runLocal, hLocal]
  exact .ret _ _

theorem runs_runLocal_unmatched (hLocal : q.allowsLocal = true)
    (hMatch : Runs (matchLocal q.conditions q.freshness) s (.ok none) t) : Runs (runLocal q) s (.ok none) t := by
  rw [runLocal, hLocal]
  exact .bind hMatch (.ret _ _)

theorem runs_runLocal (hPlain : q.conditions.hasSubQueries = false) (hAge : s.TellsAge q) :
    ∃ registry disk, Runs (runLocal q) s ((s.snapshotFor q).mapM (answerFrom q)) { s with registry, disk } := by
  cases hLocal : q.allowsLocal with
  | false =>
    refine ⟨s.registry, s.disk, ?_⟩
    rw [snapshotFor, hLocal]
    exact runs_runLocal_remote hLocal s
  | true =>
    obtain ⟨registry, disk, hMatch⟩ := runs_matchLocal_plain hPlain hAge hLocal
    refine ⟨registry, disk, ?_⟩
    cases hSnapshot : s.snapshotFor q with
    | none =>
      rw [hSnapshot] at hMatch
      exact runs_runLocal_unmatched hLocal hMatch
    | some cached =>
      rw [hSnapshot, Option.mapM_some] at hMatch
      rw [Option.mapM_some]
      exact runs_runLocal_matched hLocal hMatch

theorem failsInData_filter (h : q.allowsLocal = true) (hPlain : q.conditions.hasSubQueries = false)
    (cached : List Record) : FailsInData (q.conditions.filter cached) :=
  .filterM (fun r => Constraint.failsAs_setHolds (fun fault => ⟨fault, rfl⟩) r
    (.inr ⟨allowsLocal_conditions h, hPlain⟩)) cached

theorem failsInData_answerFrom (h : q.allowsLocal = true) (hPlain : q.conditions.hasSubQueries = false)
    (cached : List Record) : FailsInData (answerFrom q cached) := by
  refine (failsInData_filter h hPlain cached).bind fun found => ?_
  split
  · exact .ret _
  · refine .bind (.bind (FailsInData.ofData _) fun sorted => ?_) fun shown => .ret _
    exact .bind (FailsInData.ofData _) fun stretch => .ret _

/-! ### From the server -/

/-- The next answer of the server is an object with these fields. -/
structure Answered (s : Session κ α) (q : Query) (call : Call) (fields : Fields Json) : Prop where
  composed : ∃ params, q.compose = .ok params ∧
    call = .request "GET" (Schema.path q.className .null) (some (.object params))
  answer : ∃ answer, s.server.head? = some answer ∧ answer call = .ok (.object fields)

theorem Answered.runs_request (h : s.Answered q call fields) :
    ∃ params, q.compose = .ok params ∧
      Runs (request "GET" (Schema.path q.className .null) (some params)) s (.ok (.object fields))
        { s with calls := s.calls ++ [call], server := s.server.tail } := by
  obtain ⟨params, hComposed, rfl⟩ := h.composed
  obtain ⟨answer, hAnswer, hFields⟩ := h.answer
  exact ⟨params, hComposed, hFields ▸ runs_send hAnswer _⟩

theorem runs_data_none {registry : Registry} {disk : Disk} {records : List Record}
    (hLocal : Runs (runLocal q) s (.ok none) { s with registry, disk }) (hAnswered : s.Answered q call fields)
    (hRecords : recordsIn fields = .ok records) :
    ∃ t, Runs (data q) s (.ok (.found records)) t ∧ t.calls = s.calls ++ [call] := by
  have hAnswered' : Answered { s with registry, disk } q call fields := ⟨hAnswered.composed, hAnswered.answer⟩
  obtain ⟨params, hComposed, hRequest⟩ := hAnswered'.runs_request
  refine ⟨_, .bind hLocal (.bind ?_ (.bind (.bind hRequest (runs_recordsOf hRecords _)) (.ret _ _))), rfl⟩
  rw [hComposed]
  exact runs_ofExcept _ _

theorem runs_data_remote {records : List Record} (hPlain : q.conditions.hasSubQueries = false)
    (hAge : s.TellsAge q) (hAnswered : s.Answered q call fields) (hRecords : recordsIn fields = .ok records)
    (hSnapshot : s.snapshotFor q = none) :
    ∃ t, Runs (data q) s (.ok (.found records)) t ∧ t.calls = s.calls ++ [call] := by
  obtain ⟨registry, disk, hLocal⟩ := runs_runLocal hPlain hAge
  rw [hSnapshot, Option.mapM_none] at hLocal
  exact runs_data_none hLocal hAnswered hRecords

theorem runs_data_some {answer : Except Error Answer} (hLocal : Runs (runLocal q) s (some <$> answer) t) :
    Runs (data q) s answer t := by
  cases answer with
  | error e => exact .bind_fail hLocal
  | ok answer => exact .bind hLocal (.ret _ _)

theorem runs_data_local {cached : List Record} (hPlain : q.conditions.hasSubQueries = false)
    (hAge : s.TellsAge q) (hSnapshot : s.snapshotFor q = some cached) :
    ∃ t, Runs (data q) s (answerFrom q cached) t ∧ t.calls = s.calls := by
  obtain ⟨registry, disk, hLocal⟩ := runs_runLocal hPlain hAge
  rw [hSnapshot, Option.mapM_some] at hLocal
  exact ⟨{ s with registry, disk }, runs_data_some hLocal, rfl⟩

/-- The query that counts what the query gives. -/
def asCount (q : Query) : Query := { q with counting := true }

theorem runs_count_none {registry : Registry} {disk : Disk} {tally : Call} {counts : Fields Json}
    (hLocal : Runs (runLocal (asCount q)) s (.ok none) { s with registry, disk })
    (hAnswered : s.Answered (asCount q) tally counts) :
    ∃ t, Runs (count q) s (.ok ((Assoc.get? counts "count").getD (.int 0))) t ∧ t.calls = s.calls ++ [tally] := by
  have hAnswered' : Answered { s with registry, disk } (asCount q) tally counts :=
    ⟨hAnswered.composed, hAnswered.answer⟩
  obtain ⟨params, hComposed, hRequest⟩ := hAnswered'.runs_request
  refine ⟨_, .bind hLocal (.bind ?_ (.bind hRequest (.bind (.ret _ _) (.ret _ _)))), rfl⟩
  change Runs (ofExcept (asCount q).compose) _ _ _
  rw [hComposed]
  exact runs_ofExcept _ _

theorem runs_count_remote {tally : Call} {counts : Fields Json} (hPlain : q.conditions.hasSubQueries = false)
    (hAge : s.TellsAge q) (hAnswered : s.Answered (asCount q) tally counts)
    (hSnapshot : s.snapshotFor q = none) :
    ∃ t, Runs (count q) s (.ok ((Assoc.get? counts "count").getD (.int 0))) t ∧
      t.calls = s.calls ++ [tally] := by
  have hLocal : ∃ registry disk, Runs (runLocal (asCount q)) s
    ((s.snapshotFor q).mapM (answerFrom (asCount q))) { s with registry, disk } := runs_runLocal hPlain hAge
  obtain ⟨registry, disk, hLocal⟩ := hLocal
  rw [hSnapshot, Option.mapM_none] at hLocal
  exact runs_count_none hLocal hAnswered

theorem runs_count_some {q' : Query} {cached : List Record}
    (hLocal : Runs (runLocal (asCount q)) s (some <$> answerFrom (asCount q') cached) t) :
    Runs (count q) s (countFrom q' cached) t := by
  rw [answerFrom] at hLocal
  rw [countFrom]
  change Runs _ _ (some <$> (q'.conditions.filter cached >>= fun found => .ok (Answer.counted found.length))) _
    at hLocal
  cases hFound : q'.conditions.filter cached with
  | error e =>
    rw [hFound] at hLocal
    exact .bind_fail hLocal
  | ok found =>
    rw [hFound] at hLocal
    exact .bind hLocal (.ret _ _)

theorem runs_count_local {cached : List Record} (hPlain : q.conditions.hasSubQueries = false)
    (hAge : s.TellsAge q) (hSnapshot : s.snapshotFor q = some cached) :
    ∃ t, Runs (count q) s (countFrom q cached) t ∧ t.calls = s.calls := by
  have hLocal : ∃ registry disk, Runs (runLocal (asCount q)) s
    ((s.snapshotFor q).mapM (answerFrom (asCount q))) { s with registry, disk } := runs_runLocal hPlain hAge
  obtain ⟨registry, disk, hLocal⟩ := hLocal
  rw [hSnapshot, Option.mapM_some] at hLocal
  exact ⟨{ s with registry, disk }, runs_count_some hLocal, rfl⟩

/-! ### Snapshots that can be evaluated -/

/-- The conditions can be evaluated on the record, and what it is sorted by is defined. -/
def CanJudge (q : Query) (r : Record) : Prop :=
  Constraint.setAnswers r q.conditions = true ∧
    ∀ e ∈ q.order.keys, ∃ key, (r.typed e.1 >>= Value.sortKey) = .ok key

theorem compareBy_returns {a b : Record} {keys : Fields Direction}
    (ha : ∀ e ∈ keys, ∃ key, (a.typed e.1 >>= Value.sortKey) = .ok key)
    (hb : ∀ e ∈ keys, ∃ key, (b.typed e.1 >>= Value.sortKey) = .ok key) :
    ∃ sign, SortOrder.compareBy a b keys = .ok sign := by
  induction keys with
  | nil => exact ⟨0, rfl⟩
  | cons e rest ih =>
    obtain ⟨name, direction⟩ := e
    obtain ⟨haFirst, haRest⟩ := List.forall_mem_cons.mp ha
    obtain ⟨hbFirst, hbRest⟩ := List.forall_mem_cons.mp hb
    obtain ⟨first, hFirst⟩ := haFirst
    obtain ⟨second, hSecond⟩ := hbFirst
    obtain ⟨sign, hRest⟩ := ih haRest hbRest
    have hOn : ∃ sign, SortOrder.compareOn a b name direction = .ok sign := by
      obtain ⟨v, hv, hKey⟩ := Except.bind_eq_ok.mp hFirst
      obtain ⟨w, hw, hKey'⟩ := Except.bind_eq_ok.mp hSecond
      rw [SortOrder.compareOn, hv, hw]
      change ∃ sign, (v.sortKey >>= fun first => w.sortKey >>= fun second => _) = .ok sign
      rw [hKey, hKey']
      cases direction <;> exact ⟨_, rfl⟩
    obtain ⟨here, hHere⟩ := hOn
    rw [SortOrder.compareBy, hHere]
    by_cases hZero : here = 0
    · exact ⟨sign, by rw [hRest]; simp [hZero, bind, Except.bind]⟩
    · exact ⟨here, by simp [hZero, bind, Except.bind, pure, Except.pure]⟩

theorem sort_returns {o : SortOrder} {found : List Record}
    (h : ∀ r ∈ found, ∀ e ∈ o.keys, ∃ key, (r.typed e.1 >>= Value.sortKey) = .ok key) :
    ∃ sorted, o.sort found = .ok sorted ∧ sorted.Perm found := by
  have hCompares : StableSort.Compares (fun a b => return (← o.compare a b) < 0) found := by
    intro a ha b hb
    obtain ⟨sign, hSign⟩ := compareBy_returns (h a ha) (h b hb)
    exact ⟨decide (sign < 0), Except.bind_eq_ok.mpr ⟨sign, hSign, rfl⟩⟩
  obtain ⟨sorted, hSorted, hPerm⟩ := stableSort_perm hCompares
  exact ⟨sorted, by rw [SortOrder.sort, hSorted]; rfl, hPerm⟩

theorem filter_returns {cached : List Record} (h : ∀ r ∈ cached, CanJudge q r) :
    ∃ found, q.conditions.filter cached = .ok found ∧ found ⊆ cached :=
  ⟨_, filterM_eq fun r hr => Constraint.setHolds_eq_setFits (h r hr).1, List.filter_sublist.subset⟩

theorem answerFrom_returns {cached : List Record} (h : ∀ r ∈ cached, CanJudge q r)
    (hPage : ∃ n, Paging.count q.paging.effectiveLimit = .ok n) : ∃ answer, answerFrom q cached = .ok answer := by
  obtain ⟨found, hFound, hSubset⟩ := filter_returns h
  obtain ⟨n, hCount⟩ := hPage
  obtain ⟨sorted, hSorted, -⟩ := sort_returns fun r hr => (h r (hSubset hr)).2
  have hShown := Query.present_stretch hSorted hCount
  cases hCounting : q.counting with
  | true =>
    refine ⟨.counted found.length, Except.bind_eq_ok.mpr ⟨found, hFound, ?_⟩⟩
    rw [hCounting]
    rfl
  | false => exact ⟨_, answerFrom_found hCounting hFound hShown⟩

/-- Whatever the disk holds and whichever reads fail: a query whose snapshot cannot be read gives the answer of
the server, by one request of its own. One whose snapshot can be read makes no request: it gives what the
records of the snapshot give, and fails, over their data, where they cannot be evaluated. -/
theorem runs_data_count {records : List Record} {tally : Call} {counts : Fields Json}
    (hPlain : q.conditions.hasSubQueries = false) (hAge : s.TellsAge q)
    (hData : s.Answered q call fields) (hRecords : recordsIn fields = .ok records)
    (hCount : s.Answered (asCount q) tally counts) :
    match s.snapshotFor q with
    | none =>
      (∃ t, Runs (data q) s (.ok (.found records)) t ∧ t.calls = s.calls ++ [call]) ∧
        ∃ t, Runs (count q) s (.ok ((Assoc.get? counts "count").getD (.int 0))) t ∧
          t.calls = s.calls ++ [tally]
    | some cached =>
      (∃ t, Runs (data q) s (answerFrom q cached) t ∧ t.calls = s.calls) ∧
        (∃ t, Runs (count q) s (countFrom q cached) t ∧ t.calls = s.calls) ∧
        (∀ e, answerFrom q cached = .error e ∨ countFrom q cached = .error e → ∃ fault, e = .data fault) ∧
        ((∀ r ∈ cached, CanJudge q r) → (∃ n, Paging.count q.paging.effectiveLimit = .ok n) →
          (∃ answer, answerFrom q cached = .ok answer) ∧ ∃ n, countFrom q cached = .ok n) := by
  cases hSnapshot : s.snapshotFor q with
  | none =>
    exact ⟨runs_data_remote hPlain hAge hData hRecords hSnapshot,
      runs_count_remote hPlain hAge hCount hSnapshot⟩
  | some cached =>
    have hLocal : q.allowsLocal = true := by
      by_contra hRemote
      rw [snapshotFor, if_neg hRemote] at hSnapshot
      cases hSnapshot
    refine ⟨runs_data_local hPlain hAge hSnapshot, runs_count_local hPlain hAge hSnapshot, ?_, ?_⟩
    · rintro e (hFails | hFails)
      · exact failsInData_answerFrom hLocal hPlain cached e hFails
      · exact (failsInData_filter hLocal hPlain cached).bind (fun found => .ret _) e hFails
    · intro hJudge hPage
      obtain ⟨found, hFound, -⟩ := filter_returns hJudge
      exact ⟨answerFrom_returns hJudge hPage, _, Except.bind_eq_ok.mpr ⟨found, hFound, rfl⟩⟩

/-- One note in the cache, with this mark, and a server that knows of none. -/
def marked (mark : Json) : Session Unit Unit :=
  { disk := {
      blobs := [(⟨"Note", .string "a"⟩, ⟨.document (.object [("objectId", .string "a"), ("mark", mark)]), 1000.0⟩),
        (⟨"Note", .string ".list"⟩, ⟨.document (LocalStore.index ["a"]), 1000.0⟩)] }
    registry := { windows := [("Note", .int 60)] }
    server := [fun _ => .ok (.object [("results", .array []), ("count", .int 0)])]
    app := () }

/-- A date that is none. -/
def unreadable : Json := .object [("__type", .string "Date"), ("iso", .string "?")]

/-- The notes that are marked as new. -/
def markedNew : Query where
  className := "Note"
  conditions := ⟨"Note", [.equalTo "mark" (.scalar (.string "new"))]⟩

def noteMarked (mark : Json) : Record := Record.ofFields [("objectId", .string "a"), ("mark", mark)]

theorem snapshotFor_marked {mark : Json} (hMark : mark.isDocument = true) :
    (marked mark).snapshotFor markedNew = some [noteMarked mark] := by
  have hBears (key : String) : (marked mark).disk.Bears "Note" key :=
    Disk.bears_of_kind (fun h => by cases h) _ _
  have hFresh : noteStore.outlived (1000.0 - 1000.0) = false := by decide +kernel
  have hNote : (noteMarked mark).FromDocument := by
    refine ⟨_, ?_, rfl⟩
    rw [Json.isDocument_object]
    simp [hMark, Assoc.keys, Json.isDocument]
  have hAll : noteStore.allIn (marked mark).disk = .ok [noteMarked mark] :=
    LocalStore.allIn_of_fresh rfl hFresh (.cons ⟨hNote, _, rfl, hFresh⟩ .nil)
  obtain ⟨k, hRun⟩ := LocalStore.runs_loadAll (s := noteStore) (d := (marked mark).disk) rfl (hBears _)
    (fun _ _ _ _ => hBears _) fun _ => rfl
  rw [hAll] at hRun
  change ((noteStore.loadAll.run.run (marked mark).disk).1).toOption = _
  rw [hRun]
  rfl

theorem tellsAge_marked (mark : Json) : (marked mark).TellsAge markedNew := by
  intro ref hRef
  cases hRef
  exact LocalStore.tellsAge_of_numeric rfl

theorem answered_marked (mark : Json) (q : Query) {params : Fields Json} (h : q.compose = .ok params) :
    (marked mark).Answered q (.request "GET" (Schema.path q.className .null) (some (.object params)))
      [("results", .array []), ("count", .int 0)] := ⟨⟨params, h, rfl⟩, _, rfl, rfl⟩

theorem runs_data_count_marked :
    ∃ t, Runs (data markedNew) (marked (.string "new")) (.ok (.found [noteMarked (.string "new")])) t ∧
      t.calls = [] := by
  have hAnswers := runs_data_count rfl (tellsAge_marked _) (answered_marked (.string "new") markedNew rfl) rfl
    (answered_marked _ (asCount markedNew) rfl)
  rw [snapshotFor_marked rfl] at hAnswers
  exact hAnswers.1

/-- A mark that cannot be read makes the query fail, although the server would answer it. -/
theorem data_unreadable :
    (∃ call, (marked unreadable).Answered markedNew call [("results", .array []), ("count", .int 0)]) ∧
      ∃ t, Runs (data markedNew) (marked unreadable) (.error (.data (.date .text))) t := by
  have hDocument : unreadable.isDocument = true := by decide +kernel
  obtain ⟨t, hRun, -⟩ := runs_data_local rfl (tellsAge_marked _) (snapshotFor_marked hDocument)
  exact ⟨⟨_, answered_marked _ markedNew rfl⟩, t, hRun⟩

end Session

end RecordCache
