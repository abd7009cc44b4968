import RecordCache.Proofs.Client.Options
import RecordCache.Proofs.Client.SameCache

/-!
# Pages from the cache

The pages of a query that the cache can answer are cut from one list, the whole result: every page reads and sorts
the snapshot again and comes upon the same records in the same order. So a walk over the pages, which ends with the
first that is not full, gives each record once.
-/

namespace RecordCache.Session

variable {κ α : Type} {s t u : Session κ α} {q : Query} {told : Option Json} {cached sorted : List Record}
  {resolved : ConstraintSet} {wanted : Record → Bool} {size n k : Nat}

/-- From the page with this number on, the query gives these pages, one asked for after the other. The first that is
not full is the last. -/
inductive Pages (q : Query) (size : Nat) : Nat → Session κ α → List (List Record) → Session κ α → Prop
  | last {n : Nat} {s t : Session κ α} {q' : Query} {page : List Record}
      (hPage : q.page (.int (n * size : Nat)) (.int size) = .ok q') (hRun : Runs (data q') s (.ok (.found page)) t)
      (hShort : page.length < size) : Pages q size n s [page] t
  | more {n : Nat} {s t u : Session κ α} {q' : Query} {page : List Record} {pages : List (List Record)}
      (hPage : q.page (.int (n * size : Nat)) (.int size) = .ok q') (hRun : Runs (data q') s (.ok (.found page)) t)
      (hFull : ¬ page.length < size) (hRest : Pages q size (n + 1) t pages u) : Pages q size n s (page :: pages) u

theorem Pages.unique {pages pages' : List (List Record)} {t' : Session κ α} (h : Pages q size n s pages t)
    (h' : Pages q size n s pages' t') : pages = pages' := by
  induction h generalizing pages' with
  | last hPage hRun hShort =>
    cases h' with
    | last hPage' hRun' _ =>
      obtain rfl := Except.ok.inj (hPage.symm.trans hPage')
      cases (hRun.unique hRun').1
      rfl
    | more hPage' hRun' hFull' _ =>
      obtain rfl := Except.ok.inj (hPage.symm.trans hPage')
      cases (hRun.unique hRun').1
      exact absurd hShort hFull'
  | more hPage hRun hFull _ ih =>
    cases h' with
    | last hPage' hRun' hShort' =>
      obtain rfl := Except.ok.inj (hPage.symm.trans hPage')
      cases (hRun.unique hRun').1
      exact absurd hShort' hFull
    | more hPage' hRun' _ hRest' =>
      obtain rfl := Except.ok.inj (hPage.symm.trans hPage')
      obtain ⟨hSame, rfl⟩ := hRun.unique hRun'
      cases hSame
      rw [ih hRest']

/-! ### Searching again and again -/

/-- Each of so many searches, one after the other, resolves the sub-queries to this set. -/
def Resolves (q : Query) (read : Nat) (resolved : ConstraintSet) : Nat → Session κ α → Prop
  | 0, _ => True
  | n + 1, s => ∃ t, Runs (q.conditions.resolveWith selectedValues) (s.looked q read) (.ok resolved) t ∧
      Resolves q read resolved n t

/-- Sub-queries that are answered from the cache are always resolved to the same. -/
theorem resolves_of_answersAll (hConsistent : s.registry.Consistent)
    (hAll : s.AnswersAll (Constraint.setInnerSets q.conditions)) {read : Nat}
    (hRun : Runs (q.conditions.resolveWith selectedValues) (s.looked q read) (.ok resolved) t) (n : Nat) :
    Resolves q read resolved n s := by
  obtain ⟨r, -, hRuns⟩ := Repeats.resolveSetWith hConsistent hAll
  obtain ⟨u, hFirst, -⟩ := hRuns _ (SameCache.looked s q read)
  obtain ⟨rfl, rfl⟩ := hFirst.unique hRun
  have hAgain : ∀ t, SameCache s t → Resolves q read resolved n t := by
    induction n with
    | zero => exact fun _ _ => trivial
    | succ n ih =>
      intro t ht
      obtain ⟨u, hNext, hu⟩ := hRuns _ (ht.trans (SameCache.looked t q read))
      exact ⟨u, hNext, ih u hu⟩
  exact hAgain s (.refl s)

/-! ### The pages -/

section

variable (hFresh : q.freshness = Freshness.told told) (hTold : ∀ e, told = some e → e = .null ∨ e.numeric?.isSome)
  (hMatches : ∀ r ∈ cached, resolved.holds r = .ok (wanted r))
include hFresh hTold hMatches

theorem runs_count_servable (hConsistent : s.registry.Consistent) (hServable : s.Servable q told cached)
    (hResolve : Runs (q.conditions.resolveWith selectedValues) (s.looked q cached.length) (.ok resolved) t) :
    Runs (count q) s (.ok (.int (cached.filter wanted).length)) t := by
  have hCount : s.Servable (asCount q) told cached := ⟨hServable.window, hServable.includes, hServable.judged⟩
  have hLocal := runs_runLocal_servable (q := asCount q) hFresh hTold hConsistent hCount hResolve (.ret _)
  have hAnswer : Runs (count q) s (countFrom { q with conditions := resolved } cached) t := runs_count_some hLocal
  have hFilter : resolved.filter cached = .ok (cached.filter wanted) := filterM_eq hMatches
  rwa [countFrom, hFilter] at hAnswer

variable (hCounting : q.counting = false) (hSorted : q.order.sort (cached.filter wanted) = .ok sorted)
include hCounting hSorted

theorem runs_data_paged (hConsistent : s.registry.Consistent) (hServable : s.Servable q told cached)
    (hResolve : Runs (q.conditions.resolveWith selectedValues) (s.looked q cached.length) (.ok resolved) t)
    (p : Paging) {limit : Nat} (hLimit : Paging.count p.effectiveLimit = .ok limit) :
    Runs (data { q with paging := p }) s
      (.ok (.found (((q.keys.project sorted).drop (p.skip.getD 0)).take limit))) t := by
  have hPage : s.Servable { q with paging := p } told cached :=
    ⟨hServable.window, hServable.includes, hServable.judged⟩
  have hLocal := runs_runLocal_servable (q := { q with paging := p }) hFresh hTold hConsistent hPage hResolve (.ret _)
  have hFilter : resolved.filter cached = .ok (cached.filter wanted) := filterM_eq hMatches
  have hAnswer : answerFrom { q with conditions := resolved, paging := p } cached = .ok (.found _) :=
    answerFrom_found hCounting hFilter (Query.present_stretch hSorted hLimit)
  rw [← hAnswer]
  exact runs_data_some hLocal

theorem runs_data_stretch (hConsistent : s.registry.Consistent) (hServable : s.Servable q told cached)
    (hResolve : Runs (q.conditions.resolveWith selectedValues) (s.looked q cached.length) (.ok resolved) t)
    (skip : Nat) {limit : Nat} (hLimit : limit ≤ Paging.largestPage) :
    ∃ q', q.page (.int skip) (.int limit) = .ok q' ∧
      Runs (data q') s (.ok (.found (((q.keys.project sorted).drop skip).take limit))) t := by
  refine ⟨_, q.page_eq skip hLimit, ?_⟩
  have hSkip : (if skip = 0 then none else some skip).getD 0 = skip := by
    split
    · next hZero => exact hZero.symm
    · rfl
  have hRun := runs_data_paged hFresh hTold hMatches hCounting hSorted hConsistent hServable hResolve
    { q.paging with skip := if skip = 0 then none else some skip, limit := some limit } rfl
  rwa [hSkip] at hRun

/-- From any page on that a walk comes to, the pages are those of the whole result. -/
theorem exists_pages (hConsistent : s.registry.Consistent) (hServable : s.AlwaysServable q told cached)
    (hSize : 0 < size) (hLargest : size ≤ Paging.largestPage) (hPages : n + k = sorted.length / size)
    (hResolves : Resolves q cached.length resolved (k + 1) s) :
    ∃ t, Pages q size n s ((pagesOf size (q.keys.project sorted)).drop n) t := by
  have hLength : (q.keys.project sorted).length / size = sorted.length / size := by rw [Selection.length_project]
  -- by induction on how many full pages are to come
  induction k generalizing n s with
  | zero =>
    obtain ⟨t, hResolve, -⟩ := hResolves
    obtain ⟨q', hPage, hRun⟩ := runs_data_stretch hFresh hTold hMatches hCounting hSorted hConsistent
      hServable.servable hResolve (n * size) hLargest
    have hLast : (pagesOf size (q.keys.project sorted)).drop (n + 1) = [] := by
      rw [List.drop_eq_nil_iff, pagesOf, List.length_map, List.length_range, hLength]
      omega
    rw [drop_pagesOf (by omega), hLast]
    exact ⟨t, .last hPage hRun ((length_pageAt_lt_iff hSize).mpr (by omega))⟩
  | succ k ih =>
    obtain ⟨t, hResolve, hLater⟩ := hResolves
    obtain ⟨q', hPage, hRun⟩ := runs_data_stretch hFresh hTold hMatches hCounting hSorted hConsistent
      hServable.servable hResolve (n * size) hLargest
    have hSame : SameCache s t := SameCache.spreads.data q' _ _ _ hRun
    obtain ⟨u, hRest⟩ := ih (hSame.consistent hConsistent) (hServable.again hSame)
      (by omega : n + 1 + k = _) hLater
    have hFull : ¬ (pageAt size (q.keys.project sorted) n).length < size := by
      rw [length_pageAt_lt_iff hSize, hLength]
      omega
    rw [drop_pagesOf (by omega)]
    exact ⟨u, .more hPage hRun hFull hRest⟩

end

/-- Taking the result of a query that the cache can answer page by page, up to the first page that is not full, gives
the whole result: the records of the snapshot that match, each of them once and in order, and as many as the query
counts. Any page is a stretch of it. The disk holds what the query needs however often it was read, and the
sub-queries come to the same set for each page, as they do where the cache answers them. -/
theorem pages_whole (hFresh : q.freshness = Freshness.told told)
    (hTold : ∀ e, told = some e → e = .null ∨ e.numeric?.isSome) (hCounting : q.counting = false)
    (hConsistent : s.registry.Consistent) (hServable : s.AlwaysServable q told cached)
    (hMatches : ∀ r ∈ cached, resolved.holds r = .ok (wanted r))
    (hKeys : ∀ r ∈ cached.filter wanted, ∀ e ∈ q.order.keys, ∃ key, (r.typed e.1 >>= Value.sortKey) = .ok key)
    (hSize : 0 < size) (hLargest : size ≤ Paging.largestPage)
    (hResolves : Resolves q cached.length resolved ((cached.filter wanted).length / size + 1) s) :
    ∃ sorted, q.order.sort (cached.filter wanted) = .ok sorted ∧ sorted.Perm (cached.filter wanted) ∧
      (∃ pages t, Pages q size 0 s pages t) ∧
      (∀ pages t, Pages q size 0 s pages t → pages.flatten = q.keys.project sorted) ∧
      (∃ t, Runs (count q) s (.ok (.int (q.keys.project sorted).length)) t) ∧
      ∀ skip limit, limit ≤ Paging.largestPage → ∃ q' t, q.page (.int (skip : Nat)) (.int (limit : Nat)) = .ok q' ∧
        Runs (data q') s (.ok (.found (((q.keys.project sorted).drop skip).take limit))) t ∧
        (sorted.length ≤ skip → Runs (data q') s (.ok (.found [])) t) := by
  obtain ⟨sorted, hSorted, hPerm⟩ := sort_returns hKeys
  have hLength : sorted.length = (cached.filter wanted).length := hPerm.length_eq
  obtain ⟨t, hPages⟩ := exists_pages hFresh hTold hMatches hCounting hSorted hConsistent hServable hSize hLargest
    (by rw [hLength, Nat.zero_add]) hResolves
  obtain ⟨u, hResolve, -⟩ := hResolves
  refine ⟨sorted, hSorted, hPerm, ⟨_, t, hPages⟩, fun pages t' hOther => ?_, ⟨u, ?_⟩, fun skip limit hLimit => ?_⟩
  · rw [hOther.unique hPages, List.drop_zero, flatten_pagesOf hSize]
  · rw [Selection.length_project, hLength]
    exact runs_count_servable hFresh hTold hMatches hConsistent hServable.servable hResolve
  · obtain ⟨q', hPage, hRun⟩ := runs_data_stretch hFresh hTold hMatches hCounting hSorted hConsistent
      hServable.servable hResolve skip hLimit
    refine ⟨q', u, hPage, hRun, fun hPast => ?_⟩
    rwa [List.drop_eq_nil_of_le (by rwa [Selection.length_project]), List.take_nil] at hRun

/-- The notes that have the title of any note, the last title first. -/
def byTitle : Query :=
  { everyNote with conditions := ⟨"Note", [.selected "title" "title" everyNote.conditions]⟩
                   order := ⟨[("title", .descending)]⟩ }

theorem alwaysServable_titled {q : Query} (hName : q.conditions.className = "Note") (hIncludes : q.includes.keys = [])
    (hLocal : Constraint.setAllowsLocal q.conditions = true) :
    titled.AlwaysServable q none [noteTitled "a" "x", noteTitled "b" "y"] := by
  intro k
  have hWithin : noteStore.Within (.int 60) := LocalStore.within_of_numeric rfl
  obtain ⟨r, read, hRun, -, -, hRecords⟩ := LocalStore.runs_loadAll_iff hWithin { titled.disk with accesses := k }
  obtain ⟨k', hLoad⟩ := runs_loadAll_titled k
  obtain ⟨rfl, -⟩ := hRun.unique hLoad
  refine ⟨⟨.int 60, .int 60, ?_, rfl, ?_⟩, hIncludes, (Constraint.setAllowsLocal_iff _).mp hLocal⟩
  · rw [hName]
    rfl
  · rw [hName]
    exact (hRecords _).mp rfl

theorem consistent_titled : titled.registry.Consistent where
  numbers className window hWindow := by
    obtain ⟨-, rfl⟩ := Prod.mk.inj (List.mem_singleton.mp (Assoc.mem_of_get? hWindow))
    rfl
  kept _ _ hRef := nomatch hRef

theorem runs_resolve_byTitle : ∃ t, Runs (byTitle.conditions.resolveWith selectedValues) (titled.looked byTitle 2)
    (.ok ⟨"Note", [.oneOf "title" [.scalar (.string "x"), .scalar (.string "y")]]⟩) t := by
  obtain ⟨k, hLoad⟩ := runs_loadAll_titled 3
  have hStore : Runs (storeFor "Note" .asRegistered) (titled.looked byTitle 2) (.ok (some ⟨0, noteStore⟩)) _ :=
    runs_store "Note" .null _
  have hPlain := Constraint.runs_resolveSetWith_plain selectedValues
    { titled.looked byTitle 2 with disk := { titled.disk with accesses := k } }
    (rfl : everyNote.conditions.hasSubQueries = false)
  have hMatch : Runs (matchLocalBy everyNote.conditions .asRegistered _) (titled.looked byTitle 2) _ _ :=
    runs_matchLocalBy_resolved rfl hStore hLoad hPlain
  have hSelected : Runs (selectedValues "title" everyNote.conditions _) (titled.looked byTitle 2)
      (.ok [.scalar (.string "x"), .scalar (.string "y")]) _ :=
    hMatch.bind (.bind (.ret _ _) (runs_ofExcept _ _))
  exact ⟨_, .bind (.bind (.bind hSelected (.ret _ _)) (.bind (.ret [] _) (.ret _ _))) (.ret _ _)⟩

theorem pages_whole_titled :
    titled.AlwaysServable byTitle none [noteTitled "a" "x", noteTitled "b" "y"] ∧
      (∃ pages t, Pages byTitle 1 0 titled pages t ∧ pages.flatten = [noteTitled "b" "y", noteTitled "a" "x"]) ∧
      ∃ t, Runs (count byTitle) titled (.ok (.int 2)) t := by
  have hServable : titled.AlwaysServable byTitle none _ := alwaysServable_titled rfl rfl rfl
  have hAll : titled.AnswersAll (Constraint.setInnerSets byTitle.conditions) := fun inner hInner =>
    List.mem_singleton.mp hInner ▸ ⟨_, alwaysServable_titled rfl rfl rfl⟩
  obtain ⟨t, hResolve⟩ := runs_resolve_byTitle
  have hUntold : ∀ e, none = some e → e = Json.null ∨ e.numeric?.isSome := nofun
  have hMatches : ∀ r ∈ [noteTitled "a" "x", noteTitled "b" "y"],
      ConstraintSet.holds ⟨"Note", [.oneOf "title" [.scalar (.string "x"), .scalar (.string "y")]]⟩ r = .ok true :=
    List.forall_mem_cons.mpr ⟨rfl, List.forall_mem_singleton.mpr rfl⟩
  have hKeys : ∀ r ∈ [noteTitled "a" "x", noteTitled "b" "y"], ∀ e ∈ byTitle.order.keys,
      ∃ key, (r.typed e.1 >>= Value.sortKey) = .ok key :=
    List.forall_mem_cons.mpr ⟨List.forall_mem_singleton.mpr ⟨.text "x", rfl⟩,
      List.forall_mem_singleton.mpr (List.forall_mem_singleton.mpr ⟨.text "y", rfl⟩)⟩
  have hSorted : byTitle.order.sort [noteTitled "a" "x", noteTitled "b" "y"] =
    .ok [noteTitled "b" "y", noteTitled "a" "x"] := by cbv
  obtain ⟨sorted, hSort, -, ⟨pages, u, hPages⟩, hWhole, hCount, -⟩ := pages_whole rfl hUntold rfl consistent_titled
    hServable hMatches hKeys Nat.one_pos (by decide) (resolves_of_answersAll consistent_titled hAll hResolve _)
  obtain rfl := Except.ok.inj (hSorted.symm.trans hSort)
  exact ⟨hServable, ⟨pages, u, hPages, hWhole pages u hPages⟩, hCount⟩

end RecordCache.Session
