import RecordCache.Client.Search
import RecordCache.Proofs.Client.Runs
import RecordCache.Proofs.Keyed
import RecordCache.Proofs.Query.Names
import RecordCache.Proofs.Query.Sorting

/-!
# What the parameters of a request say

`Wire.answer` is how a server reads the options in the parameters of a request: in order, from a position
on, so many, with some fields. Run on the snapshot, a query gives what this reading gives on the records that
match: the texts that are sent tell everything that was asked for.
-/

namespace RecordCache

namespace Wire

/-- A field of an order; a `-` in front means falling. -/
def readField (piece : String) : String × Direction :=
  match piece.toList with
  | '-' :: rest => (String.ofList rest, .descending)
  | _ => (piece, .ascending)

def order (params : Fields Json) : Fields Direction :=
  match params.get? "order" with
  | some (.string text) => (Text.split ',' text).map readField
  | _ => []

def whole (params : Fields Json) (name : String) (default : Nat) : Nat :=
  match params.get? name with
  | some (.number (.int n)) => n.toNat
  | _ => default

/-- The record with these fields, and those that the server maintains. -/
def keep (names : List String) (r : Record) : Record :=
  { raw := r.raw.filter fun entry =>
      (names ++ ["objectId", "createdAt", "updatedAt", "ACL"]).any (entry.1 == .string ·) }

def project (params : Fields Json) (records : List Record) : List Record :=
  match params.get? "keys" with
  | some (.string text) => records.map (keep (Text.split ',' text))
  | _ => records

/-- What the parameters make of the records that match. -/
def answer (params : Fields Json) (default : Nat) (found : List Record) : List Record :=
  let sorted := found.mergeSort fun a b => !SortOrder.precedes (order params) b a
  project params ((sorted.drop (whole params "skip" 0)).take (whole params "limit" default))

theorem readField_keyText {e : String × Direction} (h : SortOrder.Tellable e) :
    readField (SortOrder.keyText e) = e := by
  obtain ⟨key, direction⟩ := e
  cases direction with
  | ascending =>
    rw [SortOrder.keyText, readField]
    split
    · next rest hMinus => exact absurd ⟨rest, hMinus.symm⟩ (h.noSign rfl)
    · rfl
  | descending =>
    have hText : ("-" ++ key).toList = '-' :: key.toList := by rw [String.toList_append]; rfl
    simp [SortOrder.keyText, readField, hText]

theorem map_readField_expression {o : SortOrder} (hSome : o.keys ≠ []) (h : ∀ e ∈ o.keys, SortOrder.Tellable e) :
    (Text.split ',' o.expression).map readField = o.keys := by
  have hPieces : ∀ piece ∈ o.keys.map SortOrder.keyText, ',' ∉ piece.toList := by
    intro piece hPiece
    obtain ⟨⟨key, direction⟩, he, rfl⟩ := List.mem_map.mp hPiece
    have hKey := (h _ he).noComma
    cases direction with
    | ascending => exact hKey
    | descending => simpa [SortOrder.keyText, String.toList_append] using hKey
  rw [SortOrder.expression, Text.split_join (by simpa using hSome) hPieces, List.map_map]
  calc o.keys.map (readField ∘ SortOrder.keyText)
      = o.keys.map id := List.map_congr_left fun e he => readField_keyText (h e he)
    _ = o.keys := List.map_id _

theorem keep_eq_project (names : List String) (r : Record) : keep names r = r.project (names.map Scalar.string) := by
  rw [keep, Record.project]
  congr 2
  funext entry
  rw [List.any_append, List.any_map, Bool.or_comm]
  congr 1
  exact congrArg (List.any names) (funext fun name => (entry.1.sameKey_string name).symm)

end Wire

theorem Paging.fallback_of_give {p p' : Paging} {skip limit : Json} (h : p.give skip limit = .ok p') :
    p'.fallback = p.fallback := by
  rw [give] at h
  obtain ⟨skip, -, h⟩ := Except.bind_eq_ok.mp h
  obtain ⟨limit, -, h⟩ := Except.bind_eq_ok.mp h
  by_cases hSkip : skip.any fun n => n < 0
  · rw [if_pos hSkip] at h
    cases h
  · rw [if_neg hSkip] at h
    by_cases hLimit : limit.any fun n => n < 0 || (largestPage : Int) < n
    · rw [if_pos hLimit] at h
      cases h
    · rw [if_neg hLimit] at h
      cases h
      rfl

namespace Query

variable {q₀ q q' : Query}

/-- No option is set. -/
structure Plain (q : Query) : Prop where
  order : q.order.keys = []
  skip : q.paging.skip = none
  limit : q.paging.limit = none
  keys : q.keys.keys = []
  includes : q.includes.keys = []
  counting : q.counting = false

/-- What calls of the options make of a query, each of which returned. -/
inductive Built (q₀ : Query) : Query → Prop
  | start : Built q₀ q₀
  | orderBy {q q' : Query} {order : Json} (h : Built q₀ q) (hFree : CommaFree order)
      (hCall : q.orderBy order = .ok q') : Built q₀ q'
  | page {q q' : Query} {skip limit : Json} (h : Built q₀ q) (hCall : q.page skip limit = .ok q') : Built q₀ q'
  | load {q q' : Query} {keys : Json} (h : Built q₀ q) (hFree : CommaFree keys)
      (hCall : q.load keys = .ok q') : Built q₀ q'
  | count {q q' : Query} {flag : Json} (h : Built q₀ q) (hCall : q.count flag = .ok q') : Built q₀ q'

/-- The options can be told in texts, and nothing else has changed. -/
structure Tells (q₀ q : Query) : Prop where
  conditions : q.conditions = q₀.conditions
  freshness : q.freshness = q₀.freshness
  includes : q.includes = q₀.includes
  fallback : q.paging.fallback = q₀.paging.fallback
  order : ∀ e ∈ q.order.keys, SortOrder.Tellable e
  keys : ∀ key ∈ q.keys.keys, ',' ∉ key.toList

theorem Built.tells (hPlain : q₀.Plain) (h : q₀.Built q) : Tells q₀ q := by
  induction h with
  | start => exact ⟨rfl, rfl, rfl, rfl, by simp [hPlain.order], by simp [hPlain.keys]⟩
  | orderBy _ hFree hCall ih =>
    obtain ⟨o, hOrder, rfl⟩ := Except.map_eq_ok.mp hCall
    exact { ih with order := SortOrder.tellable_of_argument hFree hOrder }
  | page _ hCall ih =>
    obtain ⟨p, hPaging, rfl⟩ := Except.map_eq_ok.mp hCall
    exact { ih with fallback := (Paging.fallback_of_give hPaging).trans ih.fallback }
  | load _ hFree hCall ih =>
    obtain ⟨s, hKeys, rfl⟩ := Except.map_eq_ok.mp hCall
    exact { ih with keys := Selection.noComma_of_add hFree hKeys ih.keys }
  | count _ hCall ih =>
    obtain ⟨flag, -, rfl⟩ := Except.map_eq_ok.mp hCall
    exact { ih with }

/-! ### The parameters -/

/-- The parameters that the options make of those of the conditions. -/
def withOptions (q : Query) (params : Fields Json) : Fields Json :=
  let params := q.keys.compose "keys" (q.paging.compose (q.order.compose params))
  if q.counting then (params.set "count" (.int 1)).set "limit" (.int 1) else params

theorem compose_eq {w : Fields Json} (hWhere : q.conditions.compose = .ok w) (hIncludes : q.includes.keys = []) :
    q.compose = .ok (q.withOptions (if w.isEmpty then [] else [("where", .object w)])) := by
  let adding (params : Fields Json) (part : Section) : Composing (Fields Json) :=
    ExceptT.mk fun lists => q.composeSection params part lists
  have hFirst : Runs (adding [] .conditions) [] (.ok (if w.isEmpty then [] else [("where", .object w)]))
      (q.conditions.composeWith []).2 := by
    change (Except.map _ (q.conditions.composeWith []).1, _) = _
    rw [show (q.conditions.composeWith []).1 = .ok w from hWhere]
    rfl
  have hIncluded (params : Fields Json) : q.includes.compose "include" params = params := by
    simp [Selection.compose, hIncludes]
  have hRun : Runs (sections.foldlM adding []) []
      (.ok (q.withOptions (if w.isEmpty then [] else [("where", .object w)]))) (q.conditions.composeWith []).2 := by
    simp only [sections, List.foldlM_cons, List.foldlM_nil]
    refine .bind hFirst (.bind rfl (.bind rfl (.bind rfl (.bind rfl (.bind rfl ?_)))))
    rw [hIncluded]
    rfl
  exact congrArg Prod.fst hRun

section Reading

variable {base : Fields Json}

theorem get?_orderCompose (o : SortOrder) {name : String} (h : name ≠ "order") :
    (o.compose base).get? name = base.get? name := by
  rw [SortOrder.compose]
  split
  · rfl
  · simp [Ne.symm h]

theorem get?_keysCompose (s : Selection) {section_ name : String} (h : name ≠ section_) :
    (s.compose section_ base).get? name = base.get? name := by
  rw [Selection.compose]
  split
  · rfl
  · simp [Ne.symm h]

theorem get?_pagingCompose (p : Paging) (name : String) :
    (p.compose base).get? name =
      if name = "limit" then (p.limit.map fun n => Json.int n).or (base.get? name)
      else if name = "skip" then (p.skip.map fun n => Json.int n).or (base.get? name)
      else base.get? name := by
  rw [Paging.compose]
  cases p.skip <;> cases p.limit <;> simp only [Assoc.get?_set, eq_comm] <;> split <;> simp_all

theorem get?_withOptions {name : String} (hCount : name ≠ "count") (hLimit : name ≠ "limit" ∨ q.counting = false) :
    (q.withOptions base).get? name =
      (q.keys.compose "keys" (q.paging.compose (q.order.compose base))).get? name := by
  rw [withOptions]
  split
  · next hCounting =>
    rcases hLimit with hOther | hNot
    · simp [Ne.symm hCount, Ne.symm hOther]
    · rw [hNot] at hCounting
      cases hCounting
  · rfl

theorem order_withOptions (h : ∀ e ∈ q.order.keys, SortOrder.Tellable e) (hBase : base.get? "order" = none) :
    Wire.order (q.withOptions base) = q.order.keys := by
  rw [Wire.order, get?_withOptions (by decide) (.inl (by decide)), get?_keysCompose _ (by decide),
    get?_pagingCompose, SortOrder.compose]
  by_cases hSome : q.order.keys = []
  · simp [hSome, hBase]
  · simp [hSome, Wire.map_readField_expression hSome h]

theorem skip_withOptions (hBase : base.get? "skip" = none) :
    Wire.whole (q.withOptions base) "skip" 0 = q.paging.skip.getD 0 := by
  rw [Wire.whole, get?_withOptions (by decide) (.inl (by decide)), get?_keysCompose _ (by decide),
    get?_pagingCompose, get?_orderCompose _ (by decide), hBase]
  cases q.paging.skip <;> simp [Json.int]

theorem limit_withOptions (hCounting : q.counting = false) (hBase : base.get? "limit" = none) (default : Nat) :
    Wire.whole (q.withOptions base) "limit" default = q.paging.limit.getD default := by
  rw [Wire.whole, get?_withOptions (by decide) (.inr hCounting), get?_keysCompose _ (by decide),
    get?_pagingCompose, get?_orderCompose _ (by decide), hBase]
  cases q.paging.limit <;> simp [Json.int]

theorem project_withOptions (h : ∀ key ∈ q.keys.keys, ',' ∉ key.toList) (hBase : base.get? "keys" = none)
    (records : List Record) : Wire.project (q.withOptions base) records = q.keys.project records := by
  rw [Wire.project, get?_withOptions (by decide) (.inl (by decide)), Selection.compose, Selection.project]
  by_cases hSome : q.keys.keys = []
  · simp [hSome, get?_pagingCompose, get?_orderCompose, hBase]
  · simp [hSome, Text.split_join hSome h, Wire.keep_eq_project]

end Reading

theorem count_effectiveLimit {p : Paging} {default : Nat} (h : Paging.count p.fallback = .ok default) :
    Paging.count p.effectiveLimit = .ok (p.limit.getD default) := by
  rw [Paging.effectiveLimit]
  cases p.limit with
  | none => exact h
  | some n => rfl

/-- What the texts of a request say of the options is what the options are. -/
theorem Tells.compose {w : Fields Json} {default : Nat} (h : Tells q₀ q) (hWhere : q₀.conditions.compose = .ok w)
    (hIncludes : q₀.includes.keys = []) (hDefault : Paging.count q₀.paging.fallback = .ok default) :
    ∃ params, q.compose = .ok params ∧ Wire.order params = q.order.keys ∧
      (q.counting = false → ∀ found, (∀ r ∈ found, SortOrder.Sortable q.order.keys r) →
        q.present found = .ok (Wire.answer params default found)) ∧
      (q.counting = true → params.get? "count" = some (.int 1) ∧ params.get? "limit" = some (.int 1)) := by
  let base : Fields Json := if w.isEmpty then [] else [("where", .object w)]
  have hBase (name : String) (hName : name ≠ "where") : base.get? name = none := by
    simp only [base]
    split
    · rfl
    · simp [Assoc.get?_cons, Ne.symm hName]
  have hOrder := order_withOptions h.order (hBase "order" (by decide))
  refine ⟨q.withOptions base, compose_eq (h.conditions ▸ hWhere) (h.includes ▸ hIncludes), hOrder, ?_, ?_⟩
  · intro hCounting found hFound
    have hLimit : Paging.count q.paging.effectiveLimit = .ok (q.paging.limit.getD default) :=
      count_effectiveLimit (h.fallback ▸ hDefault)
    rw [Wire.answer, hOrder, skip_withOptions (hBase _ (by decide)), limit_withOptions hCounting (hBase _ (by decide)),
      project_withOptions h.keys (hBase _ (by decide)), present, SortOrder.sort_eq hFound]
    change ((q.paging.slice _).mapError Error.data >>= fun stretch => _) = _
    rw [Paging.slice, hLimit]
    rfl
  · intro hCounting
    rw [withOptions, if_pos hCounting]
    simp

end Query

end RecordCache
