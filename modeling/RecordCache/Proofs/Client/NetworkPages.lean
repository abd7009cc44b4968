import Mathlib.Algebra.Order.Floor.Div
import RecordCache.Proofs.Client.Fallback
import RecordCache.Proofs.Constraint.Compose
import RecordCache.Proofs.Query.Pages
import RecordCache.Proofs.Value.Order

/-!
# Pages from the server

A walk over the pages of a class ends with the first page that is not full, after one request more than there are
full pages, and has come upon every record once, in the order of the server. Records by id are asked for in pieces of
the list of ids, none of them larger than a page.
-/

namespace RecordCache

namespace Session

variable {κ α : Type} {s : Session κ α} {className : String} {params : Fields Json} {size n k : Nat}
  {answer : Call → Except Error Json} {answers rest : List (Call → Except Error Json)} {page records : List Record}

/-! ### Pages -/

/-- The parameters of the request for a stretch. -/
def stretchOf (params : Fields Json) (skip limit : Nat) : Fields Json :=
  (params.set "limit" (.int limit)).set "skip" (.int skip)

/-- The request for the page with this number. -/
def pageCall (className : String) (params : Fields Json) (size n : Nat) : Call :=
  listing className (stretchOf params (n * size) size)

/-- Whatever stretch is asked for, the answer has that stretch of these records. -/
def GivesStretches (className : String) (params : Fields Json) (records : List Record)
    (answer : Call → Except Error Json) : Prop :=
  ∀ skip limit, Gives answer (listing className (stretchOf params skip limit)) ((records.drop skip).take limit)

section Page

variable {visit : List Record → Work κ α Unit} {t u : Session κ α} {limit : Nat}
  (hServer : s.server = answer :: rest) (hGives : GivesStretches className params records answer)
  (hVisit : Runs (visit (pageAt size records n)) (s.asked [pageCall className params size n] rest) (.ok ()) u)
include hServer hGives hVisit

theorem runs_pagesFrom_last (hShort : (pageAt size records n).length < size) :
    Runs (pagesFrom className params (.int size) visit (limit + 1) (.int (n * size : Nat))) s
      (.ok (pageAt size records n)) u := by
  have hNumber : (Json.int size).numeric? = some (.int size) := rfl
  have hLess : (Number.int (pageAt size records n).length).less (.int size) = true := by
    rw [Number.less_int, decide_eq_true_iff, Int.ofNat_lt]
    exact hShort
  rw [pagesFrom]
  refine (runs_findRecords hServer (hGives (n * size) size)).bind (.bind hVisit ?_)
  rw [pageAt] at hLess
  simp only [hNumber, hLess, if_true]
  exact .ret _ _

theorem runs_pagesFrom_more {later : List Record} (hFull : ¬ (pageAt size records n).length < size)
    (hLater : Runs (pagesFrom className params (.int size) visit limit (.int ((n + 1) * size : Nat))) u (.ok later) t) :
    Runs (pagesFrom className params (.int size) visit (limit + 1) (.int (n * size : Nat))) s
      (.ok (pageAt size records n ++ later)) t := by
  have hNumber : (Json.int size).numeric? = some (.int size) := rfl
  have hLess : (Number.int (pageAt size records n).length).less (.int size) = false := by
    rw [Number.less_int, decide_eq_false_iff_not, Int.ofNat_lt]
    exact hFull
  have hNext : (Number.int (n * size : Nat)).add? (.int size) = some (.int ((n + 1) * size : Nat)) := by
    rw [Number.add?, Nat.succ_mul, Int.natCast_add]
  rw [pagesFrom]
  refine (runs_findRecords hServer (hGives (n * size) size)).bind (.bind hVisit ?_)
  rw [pageAt] at hLess
  simp only [hNumber, hLess, hNext, Bool.false_eq_true, if_false]
  exact hLater.bind (.ret _ _)

end Page

/-- What is needed before a page with a number: an answer, after which the page can be visited, and then what is
needed before the next page. -/
def Visits (className : String) (params : Fields Json) (size : Nat) (records : List Record)
    (visit : List Record → Work κ α Unit) (before : Nat → Session κ α → Prop) : Prop :=
  ∀ n s, n ≤ records.length / size → before n s → ∃ answer rest u, s.server = answer :: rest ∧
    GivesStretches className params records answer ∧
    Runs (visit (pageAt size records n)) (s.asked [pageCall className params size n] rest) (.ok ()) u ∧
    before (n + 1) u

theorem exists_pagesFrom {visit : List Record → Work κ α Unit} {before : Nat → Session κ α → Prop} (hSize : 0 < size)
    (hVisits : Visits className params size records visit before) {limit : Nat} (hLimit : k < limit)
    (hPages : n + k = records.length / size) (h : before n s) :
    ∃ t, Runs (pagesFrom className params (.int size) visit limit (.int (n * size : Nat))) s
      (.ok (records.drop (n * size))) t ∧ before (records.length / size + 1) t := by
  -- by induction on how many full pages are to come
  induction k generalizing s n limit with
  | zero =>
    obtain ⟨limit, rfl⟩ := Nat.exists_eq_add_of_lt hLimit
    obtain ⟨answer, rest, u, hServer, hGives, hVisit, hAfter⟩ := hVisits n s (by omega) h
    have hShort : (pageAt size records n).length < size := (length_pageAt_lt_iff hSize).mpr (by omega)
    refine ⟨u, ?_, hPages ▸ hAfter⟩
    rw [← pageAt_eq_drop hShort]
    exact runs_pagesFrom_last hServer hGives hVisit hShort
  | succ k ih =>
    obtain ⟨limit, rfl⟩ := Nat.exists_eq_add_of_lt hLimit
    obtain ⟨answer, rest, u, hServer, hGives, hVisit, hAfter⟩ := hVisits n s (by omega) h
    have hFull : ¬ (pageAt size records n).length < size := by
      rw [length_pageAt_lt_iff hSize]
      omega
    obtain ⟨t, hLater, hEnd⟩ := ih (Nat.lt_of_lt_of_le (Nat.lt_succ_self k) (Nat.le_add_right (k + 1) limit))
      (by omega) hAfter
    refine ⟨t, ?_, hEnd⟩
    rw [← pageAt_append_drop]
    exact runs_pagesFrom_more hServer hGives hVisit hFull hLater

theorem exists_walkPages {visit : List Record → Work κ α Unit} {before : Nat → Session κ α → Prop} (hSize : 0 < size)
    (hPageSize : s.pageSize = .int size) (hAnswers : records.length / size ≤ s.server.length)
    (hVisits : Visits className params size records visit before) (h : before 0 s) :
    ∃ t, Runs (walkPages className params visit) s (.ok records) t ∧ before (records.length / size + 1) t := by
  obtain ⟨t, hRun, hEnd⟩ := exists_pagesFrom hSize hVisits (Nat.lt_succ_of_le hAnswers) (Nat.zero_add _) h
  rw [Nat.zero_mul, List.drop_zero, ← hPageSize] at hRun
  exact ⟨t, .bind (.state s) hRun, hEnd⟩

/-- The requests for so many pages, from the first. -/
def pageCalls (className : String) (params : Fields Json) (size count : Nat) : List Call :=
  (List.range count).map (pageCall className params size)

theorem pageCalls_succ (className : String) (params : Fields Json) (size count : Nat) :
    pageCalls className params size (count + 1) =
      pageCalls className params size count ++ [pageCall className params size count] := by
  rw [pageCalls, List.range_succ, List.map_append, List.map_singleton, pageCalls]

section Answered

variable (hSize : 0 < size) (hPageSize : s.pageSize = .int size) (hServer : s.server = answers ++ rest)
  (hCount : answers.length = records.length / size + 1)
  (hGives : ∀ answer ∈ answers, GivesStretches className params records answer)
include hSize hPageSize hServer hCount hGives

/-- Where visits make no requests, and each adds its page to what was seen, all records have been seen in the end. -/
theorem exists_walkPages_seen {visit : List Record → Work κ α Unit} {seen : List Record → Session κ α → Prop}
    (hAsked : ∀ before u calls left, seen before u → seen before (asked u calls left))
    (hVisit : ∀ before page u, seen before u → ∃ v, Runs (visit page) u (.ok ()) v ∧ seen (before ++ page) v ∧
      v.server = u.server ∧ v.calls = u.calls)
    (hNothing : seen [] s) :
    ∃ t, Runs (walkPages className params visit) s (.ok records) t ∧ seen records t ∧
      t.server = rest ∧ t.calls = s.calls ++ pageCalls className params size (records.length / size + 1) := by
  let before (n : Nat) (u : Session κ α) : Prop :=
    seen (records.take (n * size)) u ∧ u.server = answers.drop n ++ rest ∧
      u.calls = s.calls ++ pageCalls className params size n
  have hVisits : Visits className params size records visit before := by
    rintro n u hn ⟨hSeen, hLeft, hCalls⟩
    have hLt : n < answers.length := by omega
    rw [List.drop_eq_getElem_cons hLt, List.cons_append] at hLeft
    obtain ⟨v, hRun, hMore, hServer', hCalls'⟩ := hVisit _ (pageAt size records n) _
      (hAsked _ u [pageCall className params size n] (answers.drop (n + 1) ++ rest) hSeen)
    refine ⟨_, _, v, hLeft, hGives _ (List.getElem_mem hLt), hRun, ?_, hServer', ?_⟩
    · rw [Nat.succ_mul, List.take_add]
      exact hMore
    · rw [hCalls', pageCalls_succ, ← List.append_assoc, ← hCalls]
      rfl
  have hStart : before 0 s := by
    refine ⟨?_, hServer, (List.append_nil _).symm⟩
    rw [Nat.zero_mul]
    exact hNothing
  have hAnswers : records.length / size ≤ s.server.length := by
    rw [hServer, List.length_append]
    omega
  obtain ⟨t, hRun, hSeen, hLeft, hCalls⟩ := exists_walkPages hSize hPageSize hAnswers hVisits hStart
  have hAll : records.length ≤ (records.length / size + 1) * size :=
    Nat.mul_comm _ size ▸ Nat.le_of_lt (Nat.lt_mul_div_succ records.length hSize)
  rw [List.take_of_length_le hAll] at hSeen
  rw [List.drop_of_length_le hCount.le, List.nil_append] at hLeft
  exact ⟨t, hRun, hSeen, hLeft, hCalls⟩

theorem runs_walkPages {visit : List Record → Work κ α Unit} (hVisit : ∀ page u, Runs (visit page) u (.ok ()) u) :
    Runs (walkPages className params visit) s (.ok records)
      (s.asked (pageCalls className params size (records.length / size + 1)) rest) := by
  let seen (_ : List Record) (u : Session κ α) : Prop := ∃ calls left, u = s.asked calls left
  have hAsked (before : List Record) (u : Session κ α) (calls : List Call) (left : List (Call → Except Error Json))
      (h : seen before u) : seen before (u.asked calls left) := by
    obtain ⟨earlier, _, rfl⟩ := h
    exact ⟨earlier ++ calls, left, asked_asked ..⟩
  have hNothing : seen [] s := ⟨[], s.server, by rw [asked, List.append_nil]⟩
  obtain ⟨t, hRun, ⟨calls, left, rfl⟩, hLeft, hCalls⟩ :=
    exists_walkPages_seen hSize hPageSize hServer hCount hGives hAsked
      (fun _ page u h => ⟨u, hVisit page u, h, rfl, rfl⟩) hNothing
  obtain rfl : calls = _ := List.append_cancel_left hCalls
  obtain rfl : left = rest := hLeft
  exact hRun

end Answered

/-! ### Callbacks -/

/-- The callback sees each record that it is given, and returns. It makes no requests of its own; else it may do
what it likes. -/
def Sees (seen : α → List Record) (callback : Record → Work κ α Unit) : Prop :=
  ∀ r u, ∃ v, Runs (callback r) u (.ok ()) v ∧ seen v.app = seen u.app ++ [r] ∧
    v.server = u.server ∧ v.calls = u.calls

theorem Sees.forM {seen : α → List Record} {callback : Record → Work κ α Unit} (h : Sees seen callback)
    (before page : List Record) (u : Session κ α) (hBefore : seen u.app = seen s.app ++ before) :
    ∃ v, Runs (page.forM callback) u (.ok ()) v ∧ seen v.app = seen s.app ++ (before ++ page) ∧
      v.server = u.server ∧ v.calls = u.calls := by
  induction page generalizing u before with
  | nil => exact ⟨u, .ret _ u, by rw [List.append_nil, hBefore], rfl, rfl⟩
  | cons r rest ih =>
    obtain ⟨v, hFirst, hSeen, hServer, hCalls⟩ := h r u
    rw [hBefore, List.append_assoc] at hSeen
    obtain ⟨w, hRest, hSeen', hServer', hCalls'⟩ := ih _ v hSeen
    rw [List.append_assoc, List.singleton_append] at hSeen'
    refine ⟨w, ?_, hSeen', hServer'.trans hServer, hCalls'.trans hCalls⟩
    rw [List.forM]
    exact hFirst.bind hRest

theorem runs_forM_ret (page : List Record) (u : Session κ α) :
    Runs (page.forM fun _ => (return () : Work κ α Unit)) u (.ok ()) u := by
  induction page with
  | nil => exact .ret _ u
  | cons r rest ih =>
    rw [List.forM]
    exact .bind (.ret () u) ih

/-! ### Pieces of a list -/

section Pieces

variable {β γ : Type} {xs chunk : List β}

theorem length_chunks (size : Nat) (xs : List β) : (chunks size xs).length = xs.length ⌈/⌉ size := by
  rw [chunks, List.length_map, List.length_range, Nat.ceilDiv_eq_add_pred_div]

theorem flatten_chunks (hSize : 0 < size) (xs : List β) : (chunks size xs).flatten = xs := by
  refine flatten_pages_eq ?_
  rw [← Nat.ceilDiv_eq_add_pred_div, Nat.mul_comm]
  exact (ceilDiv_le_iff_le_mul hSize).mp le_rfl

theorem chunks_map (f : β → γ) (size : Nat) (xs : List β) :
    chunks size (xs.map f) = (chunks size xs).map (List.map f) := by
  simp [chunks, List.map_drop, List.map_take]

theorem mem_chunks (hSize : 0 < size) (h : chunk ∈ chunks size xs) : chunk ≠ [] ∧ chunk.length ≤ size := by
  obtain ⟨n, hn, rfl⟩ := List.mem_map.mp h
  rw [List.mem_range, Nat.lt_div_iff_mul_lt hSize] at hn
  have hSome : n * size < xs.length := by omega
  refine ⟨List.ne_nil_of_length_pos ?_, List.length_take_le _ _⟩
  rw [List.length_take, List.length_drop]
  omega

end Pieces

/-! ### Records by id -/

/-- The request for the records with these ids. -/
def chunkCall (className : String) (ids : List String) : Call :=
  listing className [("where", .object [("objectId", .object [("$in", .array (ids.map Json.string))])]),
    ("limit", .int ids.length)]

theorem compose_wanted (className : String) (ids : List String) :
    ConstraintSet.compose
      ⟨className, [.oneOf "objectId" ((ids.map Json.string).map fun id => .scalar (Scalar.ofJson id))]⟩ =
      .ok [("objectId", .object [("$in", .array (ids.map Json.string))])] := by
  refine ConstraintSet.compose_oneOf className "objectId" ?_ ?_
  · rw [List.map_map, List.map_map]
    rfl
  · rintro item hItem
    obtain ⟨id, -, rfl⟩ := List.mem_map.mp hItem
    rfl

theorem runs_fetchChunk {ids : List String} (hServer : s.server = answer :: rest)
    (hGives : Gives answer (chunkCall className ids) page) :
    Runs (fetchChunk className (ids.map Json.string)) s (.ok page) (s.asked [chunkCall className ids] rest) := by
  rw [fetchChunk, compose_wanted, List.length_map]
  exact .bind (runs_ofExcept _ s) (runs_findRecords hServer hGives)

theorem runs_mapM_fetchChunk {pieces : List (List String)} {found : List String → List Record}
    (hServer : s.server = answers ++ rest) (hCount : answers.length = pieces.length)
    (hGives : ∀ answer ∈ answers, ∀ piece ∈ pieces, Gives answer (chunkCall className piece) (found piece)) :
    Runs ((pieces.map (List.map Json.string)).mapM (fetchChunk className)) s (.ok (pieces.map found))
      (s.asked (pieces.map (chunkCall className)) rest) := by
  induction pieces generalizing s answers with
  | nil =>
    obtain rfl := List.length_eq_zero_iff.mp hCount
    have hSame : s.asked [] rest = s := by
      rw [asked, List.append_nil, ← List.nil_append rest, ← hServer]
    simp only [List.map_nil, List.mapM_nil, hSame]
    exact .ret _ s
  | cons piece pieces ih =>
    obtain ⟨answer, later, rfl⟩ := List.exists_cons_of_ne_nil (List.ne_nil_of_length_eq_add_one hCount)
    obtain ⟨hHere, hLater⟩ := List.forall_mem_cons.mp hGives
    have hFirst := runs_fetchChunk hServer (hHere piece List.mem_cons_self)
    have hRest : Runs ((pieces.map (List.map Json.string)).mapM (fetchChunk className))
        (s.asked [chunkCall className piece] (later ++ rest)) _ _ :=
      ih rfl (Nat.succ.inj hCount) fun answer hAnswer other hOther =>
        hLater answer hAnswer other (List.mem_cons_of_mem _ hOther)
    rw [asked_asked] at hRest
    rw [List.map_cons, List.mapM_cons]
    exact hFirst.bind (hRest.bind (.ret _ _))

theorem runs_fetchMany (hPageSize : s.pageSize = .int size) {ids : List String} {found : List String → List Record}
    (hServer : s.server = answers ++ rest) (hCount : answers.length = ids.length ⌈/⌉ size)
    (hGives : ∀ answer ∈ answers, ∀ chunk ∈ chunks size ids, Gives answer (chunkCall className chunk) (found chunk)) :
    Runs (fetchMany className (ids.map Json.string)) s (.ok ((chunks size ids).map found).flatten)
      (s.asked ((chunks size ids).map (chunkCall className)) rest) := by
  have hRun := runs_mapM_fetchChunk hServer (hCount.trans (length_chunks size ids).symm) hGives
  have hSize : Runs (ofData (Paging.count s.pageSize)) s (.ok size) s := by
    rw [hPageSize]
    exact runs_ofExcept _ s
  rw [← chunks_map] at hRun
  exact .bind (.state s) (hSize.bind (hRun.bind (.ret _ _)))

theorem perm_flatten_found {ids : List String} {known : String → Bool} {found : List String → List Record}
    (hSize : 0 < size)
    (h : ∀ chunk ∈ chunks size ids, ((found chunk).map Record.objectId?).Perm ((chunk.filter known).map some)) :
    (((chunks size ids).map found).flatten.map Record.objectId?).Perm ((ids.filter known).map some) := by
  have hIds : (ids.filter known).map some = (chunks size ids).flatMap fun chunk => (chunk.filter known).map some := by
    conv_lhs => rw [← flatten_chunks hSize ids]
    rw [List.filter_flatten, List.map_flatten, List.map_map, List.flatMap_def]
    rfl
  rw [List.map_flatten, List.map_map, hIds, ← List.flatMap_def]
  exact List.Perm.flatMap_left _ h

/-! ### Walks -/

/-- The parameters that restrict a request to these conditions. -/
def whereParams (w : Where) : Fields Json := if w.isEmpty then [] else [("where", .object w)]

/-- Every walk over the pages of a class comes upon these records, in this order, and leaves this session. A query is
walked whatever stretch it asks for, and its callback sees just these records, in this order. -/
structure WalksOver (s : Session κ α) (className : String) (params : Fields Json) (records : List Record)
    (t : Session κ α) : Prop where
  pages : Runs (fetchPages className params) s (.ok records) t
  all : ∀ (conditions : ConstraintSet) w, conditions.className = className → conditions.compose = .ok w →
    params = whereParams w → Runs (fetchAll conditions) s (.ok records) t
  each : ∀ (q : Query) composed, q.className = className → q.compose = .ok composed →
    params = (composed.erase "skip").erase "limit" → Runs (each q) s (.ok records) t
  callbacks : ∀ (q : Query) composed, q.className = className → q.compose = .ok composed →
    params = (composed.erase "skip").erase "limit" → ∀ (seen : α → List Record) callback, Sees seen callback →
      ∃ t', Runs (Session.each q callback) s (.ok records) t' ∧ seen t'.app = seen s.app ++ records ∧
        t'.server = t.server ∧ t'.calls = t.calls

/-- The list of ids in pieces, none of which is empty or longer than a page. -/
structure InPieces (size : Nat) (ids : List String) (pieces : List (List String)) : Prop where
  count : pieces.length = ids.length ⌈/⌉ size
  whole : pieces.flatten = ids
  bounds : ∀ piece ∈ pieces, piece ≠ [] ∧ piece.length ≤ size

/-- Where the server answers with stretches of a list of records, a walk over its pages ends after one request more
than there are full pages, with skips in steps of a page, and gives every record once, in the order of the server.
Records by id are asked for in pieces of the list of ids; where each piece is answered with the known records of it,
so is the whole, each of them once. -/
theorem walks_end (hSize : 0 < size) (hPageSize : s.pageSize = .int size) :
    (∀ className params records answers rest, s.server = answers ++ rest →
      answers.length = records.length / size + 1 →
      (∀ answer ∈ answers, GivesStretches className params records answer) →
      s.WalksOver className params records (s.asked (pageCalls className params size (records.length / size + 1)) rest)) ∧
    ∀ className ids found answers rest, s.server = answers ++ rest → answers.length = ids.length ⌈/⌉ size →
      (∀ answer ∈ answers, ∀ chunk ∈ chunks size ids, Gives answer (chunkCall className chunk) (found chunk)) →
      InPieces size ids (chunks size ids) ∧
      Runs (fetchMany className (ids.map Json.string)) s (.ok ((chunks size ids).map found).flatten)
        (s.asked ((chunks size ids).map (chunkCall className)) rest) ∧
      ∀ known : String → Bool, ids.Nodup →
        (∀ chunk ∈ chunks size ids, ((found chunk).map Record.objectId?).Perm ((chunk.filter known).map some)) →
        (((chunks size ids).map found).flatten.map Record.objectId?).Perm ((ids.filter known).map some) ∧
          (((chunks size ids).map found).flatten.map Record.objectId?).Nodup := by
  constructor
  · intro className params records answers rest hServer hCount hGives
    have hPages : Runs (fetchPages className params) s _ _ :=
      runs_walkPages hSize hPageSize hServer hCount hGives fun _ u => .ret () u
    refine ⟨hPages, ?_, ?_, ?_⟩
    · rintro conditions w rfl hCompose rfl
      rw [fetchAll, hCompose]
      exact .bind (runs_ofExcept _ s) hPages
    · rintro q composed rfl hCompose rfl
      rw [Session.each, hCompose]
      exact .bind (runs_ofExcept _ s) (runs_walkPages hSize hPageSize hServer hCount hGives runs_forM_ret)
    · rintro q composed rfl hCompose rfl seen callback hSees
      obtain ⟨t', hWalk, hEnd⟩ := exists_walkPages_seen hSize hPageSize hServer hCount hGives (fun _ _ _ _ h => h)
        hSees.forM (List.append_nil _).symm
      rw [Session.each, hCompose]
      exact ⟨t', .bind (runs_ofExcept _ s) hWalk, hEnd⟩
  · intro className ids found answers rest hServer hCount hGives
    refine ⟨⟨length_chunks size ids, flatten_chunks hSize ids, fun chunk => mem_chunks hSize⟩,
      runs_fetchMany hPageSize hServer hCount hGives, fun known hDistinct hKnown => ?_⟩
    have hPerm := perm_flatten_found hSize hKnown
    exact ⟨hPerm, hPerm.nodup_iff.mpr ((hDistinct.filter known).map (Option.some_injective _))⟩

/-- The notes that the server knows. -/
def served : List Record := [noteBy "a" "ann", noteBy "b" "bob"]

/-- A stretch of the notes, or those with the ids of a list. -/
def serveNotes : Call → Except Error Json
  | .request _ _ (some (.object [("limit", .number (.int limit)), ("skip", .number (.int skip))])) =>
    .ok (.object [("results", .array (((served.drop skip.toNat).take limit.toNat).map Record.json))])
  | .request _ _ (some (.object (("where", .object [("objectId", .object [("$in", .array ids)])]) :: _))) =>
    .ok (.object [("results", .array ((served.filter fun r => ids.any (LocalStore.idJson r).same).map Record.json))])
  | _ => .error unreachable

/-- Pages of two notes. -/
def pager : Session Unit Unit := { server := [serveNotes, serveNotes], pageSize := .int 2, app := () }

theorem recordsIn_served {found : List Record} (h : found ⊆ served) :
    recordsIn [("results", .array (found.map Record.json))] = .ok found := by
  have hServed : ∀ r ∈ served, Record.ofJson r.json = .ok r :=
    List.forall_mem_cons.mpr ⟨rfl, List.forall_mem_singleton.mpr rfl⟩
  exact Except.mapM_eq_ok.mpr (List.forall₂_map_left_iff.mpr (List.forall₂_same.mpr fun r hr => hServed r (h hr)))

theorem givesStretches_served : GivesStretches "Note" [] served serveNotes := fun _ _ =>
  ⟨_, rfl, recordsIn_served fun _ hr => List.drop_subset _ _ (List.take_subset _ _ hr)⟩

/-- The notes with one of these ids. -/
def servedAmong (ids : List String) : List Record :=
  served.filter fun r => (ids.map Json.string).any (LocalStore.idJson r).same

theorem gives_servedAmong (ids : List String) : Gives serveNotes (chunkCall "Note" ids) (servedAmong ids) :=
  ⟨_, rfl, recordsIn_served (List.filter_subset_self _)⟩

/-- Two notes are a full page, so a second one is asked for. One of the three ids is unknown. -/
theorem walks_end_served :
    Runs (fetchPages "Note" []) pager (.ok served) (pager.asked (pageCalls "Note" [] 2 2) []) ∧
      Runs (fetchMany "Note" [.string "a", .string "c", .string "b"]) pager (.ok served)
        (pager.asked [chunkCall "Note" ["a", "c"], chunkCall "Note" ["b"]] []) ∧
      (served.map Record.objectId?).Perm [some "a", some "b"] := by
  obtain ⟨hWalks, hMany⟩ := walks_end (s := pager) Nat.two_pos rfl
  have hPages := hWalks "Note" [] served [serveNotes, serveNotes] [] rfl rfl (by simp [givesStretches_served])
  obtain ⟨-, hFetch, hFound⟩ := hMany "Note" ["a", "c", "b"] servedAmong [serveNotes, serveNotes] [] rfl rfl
    (by simp [gives_servedAmong])
  have hChunks : chunks 2 ["a", "c", "b"] = [["a", "c"], ["b"]] := rfl
  have hServed : ([["a", "c"], ["b"]].map servedAmong).flatten = served := by cbv
  rw [hChunks, hServed] at hFetch hFound
  have hKnown := hFound (fun id => id == "a" || id == "b") (by decide)
    (List.forall_mem_cons.mpr ⟨.of_eq (by cbv), List.forall_mem_singleton.mpr (.of_eq (by cbv))⟩)
  exact ⟨hPages.pages, hFetch, hKnown.1⟩

end Session

end RecordCache
