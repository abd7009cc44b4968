import RecordCache.Query

/-!
# Pages

A list is cut into pages of one size, numbered from zero. Every page before the number of whole pages is full, the
page with that number is the first that is not, and together they are the list.
-/

namespace RecordCache

variable {β : Type} {size n count : Nat} {xs : List β}

/-- The page with this number. -/
def pageAt (size : Nat) (xs : List β) (n : Nat) : List β := (xs.drop (n * size)).take size

/-- The pages up to the first that is not full. -/
def pagesOf (size : Nat) (xs : List β) : List (List β) := (List.range (xs.length / size + 1)).map (pageAt size xs)

theorem length_pageAt_lt_iff (hSize : 0 < size) : (pageAt size xs n).length < size ↔ xs.length / size ≤ n := by
  rw [pageAt, List.length_take, List.length_drop, ← Nat.lt_add_one_iff, Nat.div_lt_iff_lt_mul hSize, Nat.succ_mul]
  omega

theorem pageAt_append_drop (size : Nat) (xs : List β) (n : Nat) :
    pageAt size xs n ++ xs.drop ((n + 1) * size) = xs.drop (n * size) := by
  rw [pageAt, Nat.succ_mul, ← List.drop_drop, List.take_append_drop]

theorem pageAt_eq_drop (h : (pageAt size xs n).length < size) : pageAt size xs n = xs.drop (n * size) := by
  rw [pageAt, List.length_take] at h
  exact List.take_of_length_le (by omega)

theorem flatten_pages (size : Nat) (xs : List β) (count : Nat) :
    ((List.range count).map (pageAt size xs)).flatten = xs.take (count * size) := by
  induction count with
  | zero => simp
  | succ count ih =>
    rw [List.range_succ, List.map_append, List.flatten_append, ih, Nat.succ_mul, List.take_add, List.map_singleton,
      List.flatten_singleton, pageAt]

theorem flatten_pages_eq (h : xs.length ≤ count * size) : ((List.range count).map (pageAt size xs)).flatten = xs := by
  rw [flatten_pages, List.take_of_length_le h]

theorem flatten_pagesOf (hSize : 0 < size) : (pagesOf size xs).flatten = xs :=
  flatten_pages_eq (Nat.mul_comm _ size ▸ Nat.le_of_lt (Nat.lt_mul_div_succ xs.length hSize))

/-- The page with this number and those after it, up to the first that is not full. -/
theorem drop_pagesOf (h : n ≤ xs.length / size) :
    (pagesOf size xs).drop n = pageAt size xs n :: (pagesOf size xs).drop (n + 1) := by
  rw [pagesOf, List.drop_eq_getElem_cons (by simpa using Nat.lt_add_one_of_le h)]
  simp

namespace Selection

theorem length_project (s : Selection) (records : List Record) : (s.project records).length = records.length := by
  rw [project]
  split
  · rfl
  · rw [List.length_map]

theorem project_stretch (s : Selection) (records : List Record) (skip limit : Nat) :
    s.project ((records.drop skip).take limit) = ((s.project records).drop skip).take limit := by
  rw [project, project]
  split
  · rfl
  · rw [List.map_take, List.map_drop]

end Selection

namespace Query

variable {q : Query} {sorted found : List Record}

theorem present_stretch {limit : Nat} (hSorted : q.order.sort found = .ok sorted)
    (hLimit : Paging.count q.paging.effectiveLimit = .ok limit) :
    q.present found = .ok (((q.keys.project sorted).drop (q.paging.skip.getD 0)).take limit) := by
  rw [present, hSorted, ← Selection.project_stretch]
  change ((q.paging.slice sorted).mapError Error.data >>= fun stretch => _) = _
  rw [Paging.slice, hLimit]
  rfl

/-- A query takes any page that is not too large, and asks for nothing else. -/
theorem page_eq (q : Query) (skip : Nat) {limit : Nat} (hLimit : limit ≤ Paging.largestPage) :
    q.page (.int skip) (.int limit) = .ok { q with paging := { q.paging with
      skip := if skip = 0 then none else some skip, limit := some limit } } := by
  have hSkip : ¬ ((skip : Int) < 0) := Int.not_lt.mpr (Int.natCast_nonneg skip)
  have hLow : ¬ ((limit : Int) < 0) := Int.not_lt.mpr (Int.natCast_nonneg limit)
  have hHigh : ¬ ((Paging.largestPage : Int) < limit) := by omega
  rw [page, Paging.give]
  simp [Paging.whole?, Json.int, hSkip, hLow, hHigh, bind, Except.bind, pure, Except.pure, Except.map]

end Query

end RecordCache
