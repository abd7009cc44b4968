import RecordCache.Proofs.Client.Fallback
import RecordCache.Proofs.Query.Wire

/-!
# Options on the snapshot

A query that runs on the snapshot gives what the parameters of its request say of the records that match.
-/

namespace RecordCache.Session

variable {κ α : Type} {s t : Session κ α} {q₀ q : Query} {found : List Record}

theorem allowed_of_matchLocal {conditions : ConstraintSet} {freshness : Freshness}
    (h : Runs (matchLocal conditions freshness) s (.ok (some found)) t) :
    freshness ≠ .never ∧ conditions.allowsLocal = true := by
  have hStores : ∃ ref middle, Runs (storeFor conditions.className freshness) s (.ok ref) middle ∧
      (freshness = .never → ref = none) := by
    cases freshness with
    | never => exact ⟨none, s, .ret none s, fun _ => rfl⟩
    | asRegistered => exact ⟨_, _, runs_store conditions.className .null s, nofun⟩
    | within window => exact ⟨_, _, runs_store conditions.className window s, nofun⟩
  obtain ⟨ref, middle, hStore, hNever⟩ := hStores
  by_contra hNot
  have hRemote : ref = none ∨ conditions.allowsLocal = false := by
    by_cases hFresh : freshness = .never
    · exact .inl (hNever hFresh)
    · exact .inr (by simpa [hFresh] using hNot)
  have hNone := (runs_matchLocalBy_remote hStore hRemote).unique h
  cases hNone.1

theorem allowsLocal_of_matchLocal (hIncludes : q.includes.keys = [])
    (h : Runs (matchLocal q.conditions q.freshness) s (.ok (some found)) t) : q.allowsLocal = true := by
  obtain ⟨hFresh, hConditions⟩ := allowed_of_matchLocal h
  rw [Query.allowsLocal, hConditions, hIncludes]
  cases hFreshness : q.freshness with
  | never => exact absurd hFreshness hFresh
  | asRegistered => rfl
  | within window => rfl

/-- The options of a query mean on the snapshot what the parameters of its request say. -/
theorem runLocal_reads {w : Fields Json} {default : Nat} (hPlain : q₀.Plain) (hBuilt : q₀.Built q)
    (hWhere : q₀.conditions.compose = .ok w) (hDefault : Paging.count q₀.paging.fallback = .ok default)
    (hMatch : Runs (matchLocal q₀.conditions q₀.freshness) s (.ok (some found)) t) :
    ∃ params, q.compose = .ok params ∧ Wire.order params = q.order.keys ∧
      (q.counting = false → (∀ r ∈ found, SortOrder.Sortable (Wire.order params) r) →
        Runs (runLocal q) s (.ok (some (.found (Wire.answer params default found)))) t) ∧
      (q.counting = true → Runs (runLocal q) s (.ok (some (.counted found.length))) t ∧
        params.get? "count" = some (.int 1) ∧ params.get? "limit" = some (.int 1)) := by
  have hTells := hBuilt.tells hPlain
  rw [← hTells.conditions, ← hTells.freshness] at hMatch
  have hLocal := allowsLocal_of_matchLocal (hTells.includes ▸ hPlain.includes) hMatch
  obtain ⟨params, hParams, hOrder, hPresent, hTally⟩ := hTells.compose hWhere hPlain.includes hDefault
  refine ⟨params, hParams, hOrder, ?_, ?_⟩
  · intro hCounting hSortable
    rw [hOrder] at hSortable
    rw [runLocal, hLocal]
    refine .bind hMatch ?_
    simp only [hCounting, Bool.false_eq_true, if_false, hPresent hCounting found hSortable]
    exact .bind (runs_ofExcept _ _) (.ret _ _)
  · intro hCounting
    refine ⟨?_, hTally hCounting⟩
    rw [runLocal, hLocal]
    refine .bind hMatch ?_
    rw [hCounting]
    exact .ret _ _

/-- Two notes in the cache. -/
def titled : Session Unit Unit :=
  { disk := {
      blobs := [(⟨"Note", .string "a"⟩, ⟨.document (.object [("objectId", .string "a"), ("title", .string "x")]), 1000.0⟩),
        (⟨"Note", .string "b"⟩, ⟨.document (.object [("objectId", .string "b"), ("title", .string "y")]), 1000.0⟩),
        (⟨"Note", .string ".list"⟩, ⟨.document (LocalStore.index ["a", "b"]), 1000.0⟩)] }
    registry := { windows := [("Note", .int 60)] }
    app := () }

def noteTitled (id title : String) : Record := Record.ofFields [("objectId", .string id), ("title", .string title)]

def everyNote : Query := { className := "Note" }

/-- The last title, and nothing else. -/
def lastTitle : Query :=
  { everyNote with order := ⟨[("title", .descending)]⟩, paging := { limit := some 1 }, keys := ⟨["title"]⟩ }

theorem runs_loadAll_titled (k : Nat) : ∃ k', Runs noteStore.loadAll { titled.disk with accesses := k }
    (.ok [noteTitled "a" "x", noteTitled "b" "y"]) { titled.disk with accesses := k' } := by
  have hBears (key : String) : ({ titled.disk with accesses := k } : Disk).Bears "Note" key :=
    Disk.bears_of_kind (fun h => by cases h) _ _
  have hFresh : noteStore.outlived (1000.0 - 1000.0) = false := by decide +kernel
  have hNote (id title : String) : (noteTitled id title).FromDocument :=
    ⟨_, by rw [Json.isDocument_object]; simp [Assoc.keys, Json.isDocument], rfl⟩
  have hAll : noteStore.allIn { titled.disk with accesses := k } = .ok [noteTitled "a" "x", noteTitled "b" "y"] :=
    LocalStore.allIn_of_fresh rfl hFresh
      (.cons ⟨hNote _ _, _, rfl, hFresh⟩ (.cons ⟨hNote _ _, _, rfl, hFresh⟩ .nil))
  obtain ⟨k', hLoad⟩ := LocalStore.runs_loadAll (s := noteStore) rfl (hBears _) (fun _ _ _ _ => hBears _) fun _ => rfl
  exact ⟨k', hAll ▸ hLoad⟩

theorem runs_matchLocal_titled :
    ∃ t, Runs (matchLocal everyNote.conditions everyNote.freshness) titled
      (.ok (some [noteTitled "a" "x", noteTitled "b" "y"])) t := by
  obtain ⟨k, hLoad⟩ := runs_loadAll_titled 0
  have hStore : Runs (storeFor everyNote.conditions.className everyNote.freshness) titled _ _ :=
    runs_store "Note" .null titled
  exact ⟨_, runs_matchLocalBy_resolved rfl hStore hLoad (Constraint.runs_resolveSetWith_plain selectedValues _ rfl)⟩

theorem built_lastTitle : everyNote.Built lastTitle := by
  have hRead : (SortOrder.ofArgument (.string "-title")).toOption.map SortOrder.keys = some lastTitle.order.keys := by
    decide +kernel
  obtain ⟨o, hOrder, hSame⟩ := Option.map_eq_some_iff.mp hRead
  obtain rfl : o = lastTitle.order := congrArg SortOrder.mk hSame
  rw [Except.toOption_eq_some_iff] at hOrder
  have hKeys : Selection.add {} "keys" (.string "title") = .ok lastTitle.keys := rfl
  have hFree (text : String) : CommaFree (.string text) := trivial
  have hOrdered : everyNote.Built { everyNote with order := lastTitle.order } :=
    .orderBy .start (hFree "-title") (by rw [Query.orderBy, hOrder]; rfl)
  have hPaged : everyNote.Built { everyNote with order := lastTitle.order, paging := lastTitle.paging } :=
    .page hOrdered (rfl : Query.page _ .null (.int 1) = _)
  refine .load hPaged (hFree "title") ?_
  rw [Query.load]
  exact congrArg (Except.map _) hKeys

theorem compose_lastTitle :
    lastTitle.compose = .ok [("order", .string "-title"), ("limit", .int 1), ("keys", .string "title")] := rfl

theorem mergeSort_titled :
    [noteTitled "a" "x", noteTitled "b" "y"].mergeSort (fun a b => !SortOrder.precedes lastTitle.order.keys b a) =
      [noteTitled "b" "y", noteTitled "a" "x"] := by
  have hLater : SortOrder.precedes lastTitle.order.keys (noteTitled "b" "y") (noteTitled "a" "x") = true := rfl
  simp [List.mergeSort, hLater]

theorem runLocal_reads_lastTitle :
    everyNote.Plain ∧ everyNote.Built lastTitle ∧ ∃ t,
      Runs (matchLocal everyNote.conditions everyNote.freshness) titled
        (.ok (some [noteTitled "a" "x", noteTitled "b" "y"])) t ∧
      Runs (runLocal lastTitle) titled (.ok (some (.found [noteTitled "b" "y"]))) t := by
  have hPlain : everyNote.Plain := ⟨rfl, rfl, rfl, rfl, rfl, rfl⟩
  obtain ⟨t, hMatch⟩ := runs_matchLocal_titled
  obtain ⟨params, hParams, hOrder, hFound, -⟩ := runLocal_reads hPlain built_lastTitle rfl rfl hMatch
  obtain rfl := Except.ok.inj (compose_lastTitle.symm.trans hParams)
  have hSortable (id title : String) : SortOrder.Sortable lastTitle.order.keys (noteTitled id title) := by
    intro e he
    obtain rfl := List.mem_singleton.mp he
    exact ⟨.text title, rfl, trivial⟩
  have hRun := hFound rfl (by rw [hOrder]; simp [hSortable])
  rw [Wire.answer, hOrder, mergeSort_titled] at hRun
  have hShown : Wire.project [("order", .string "-title"), ("limit", .int 1), ("keys", .string "title")]
      [noteTitled "b" "y"] = [noteTitled "b" "y"] := rfl
  refine ⟨hPlain, built_lastTitle, t, hMatch, ?_⟩
  rw [← hShown]
  exact hRun

end RecordCache.Session
