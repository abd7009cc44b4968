import RecordCache.Client.Search
import RecordCache.Proofs.Client.Runs
import RecordCache.Proofs.Constraint.Satisfies
import RecordCache.Proofs.LocalStore.Snapshot

/-!
# Sub-queries and what they say

A session serves a database when a snapshot, where one can be read, has the records of its class, and when
the server answers the sub-queries that are yet to come. Resolving sub-queries then keeps the meaning of a
set, whichever classes are cached.
-/

namespace RecordCache

namespace Registry

/-- The store that a class is cached in. -/
def own (registry : Registry) (className : String) : Option LocalStore :=
  (registry.ownStore className).1.map (·.store)

theorem own_store (registry : Registry) (className other : String) (window : Json) :
    (registry.store className window).2.own other = registry.own other := by
  rw [store]
  split
  · rw [ownStore]
    split
    · rfl
    · rfl
    · next hWindow hStore =>
      by_cases hName : className = other
      · subst hName
        rw [own, own, ownStore, ownStore]
        simp [hWindow, hStore, newStore]
      · rw [own, own, ownStore, ownStore]
        simp only [newStore, Assoc.get?_set, if_neg hName]
        split <;> rfl
  · rw [own, own, ownStore, ownStore]
    simp only [newStore]
    split <;> rfl

end Registry

namespace Session

variable {κ α : Type} {db : Database} {inners : List ConstraintSet}

open Constraint

/-- The next answers of the server are right for these sets, as many of them as are counted. -/
def Knows (κ α : Type) (db : Database) (inners : List ConstraintSet) (pageSize : Json) :
    Nat → List (Call → Except Error Json) → Prop
  | 0, _ => True
  | n + 1, server => ∀ inner ∈ inners, ∃ rest,
      (∀ s : Session κ α, s.server = server → s.pageSize = pageSize → ∃ calls,
        Runs (fetchAll inner) s (.ok ((db.records inner.className).filter fun r => setSatisfies db r inner))
          { s with server := rest, calls }) ∧
        Knows κ α db inners pageSize n rest

theorem Knows.mono {pageSize : Json} {n m : Nat} (h : n ≤ m) {server : List (Call → Except Error Json)}
    (hKnows : Knows κ α db inners pageSize m server) : Knows κ α db inners pageSize n server := by
  induction m generalizing n server with
  | zero =>
    obtain rfl := Nat.le_zero.mp h
    exact hKnows
  | succ m ih =>
    cases n with
    | zero => trivial
    | succ n =>
      intro inner hInner
      obtain ⟨rest, hRun, hRest⟩ := hKnows inner hInner
      exact ⟨rest, hRun, ih (Nat.le_of_succ_le_succ h) hRest⟩

/-- A snapshot that can be read has the records of its class, and the server knows the answers. -/
structure Serves (db : Database) (inners : List ConstraintSet) (s : Session κ α) (n : Nat) : Prop where
  cache : ∀ className store, s.registry.own className = some store → ∀ k, ∃ r k',
    Runs store.loadAll { s.disk with accesses := k } r { s.disk with accesses := k' } ∧
      (r = .ok (db.records className) ∨ ∃ e, r = .error e ∧ e.isCache = true)
  server : Knows κ α db inners s.pageSize n s.server

namespace Serves

variable {s : Session κ α} {n m : Nat}

theorem mono (h : Serves db inners s m) (hLess : n ≤ m) : Serves db inners s n :=
  ⟨h.cache, h.server.mono hLess⟩

theorem reading (h : Serves db inners s n) (className : String) (window : Json) (k : Nat) :
    Serves db inners { s with
      registry := (s.registry.store className window).2, disk := { s.disk with accesses := k } } n where
  cache name store hStore := by
    rw [Registry.own_store] at hStore
    exact h.cache name store hStore
  server := h.server

theorem fetching (h : Serves db inners s (n + 1)) {inner : ConstraintSet} (hInner : inner ∈ inners) :
    ∃ t, Runs (fetchAll inner) s
      (.ok ((db.records inner.className).filter fun r => setSatisfies db r inner)) t ∧
        Serves db inners t n := by
  obtain ⟨rest, hRun, hRest⟩ := h.server inner hInner
  obtain ⟨calls, hFetch⟩ := hRun s rfl rfl
  exact ⟨_, hFetch, h.cache, hRest⟩

end Serves

/-! ### The values of a sub-query -/

theorem filterM_eq {ε β : Type} {f : β → Except ε Bool} {p : β → Bool} {xs : List β}
    (h : ∀ x ∈ xs, f x = .ok (p x)) : xs.filterM f = .ok (xs.filter p) := by
  have hAux (acc : List β) : List.filterAuxM f xs acc = .ok ((xs.filter p).reverse ++ acc) := by
    induction xs generalizing acc with
    | nil => rfl
    | cons x rest ih =>
      obtain ⟨hx, hRest⟩ := List.forall_mem_cons.mp h
      rw [List.filterAuxM, hx]
      refine (ih hRest (cond (p x) (x :: acc) acc)).trans ?_
      cases hp : p x <;> simp [hp]
  rw [List.filterM, hAux]
  simp [bind, Except.bind, pure, Except.pure]

theorem any_addValue (test : Value → Bool) (values : List Value) {v : Value}
    (hTest : ∀ w ∈ values, v.same w = true → test v = test w) :
    (addValue values v).any test = (values.any test || (!v.isNull && test v)) := by
  have hAdded : ((if values.any v.same then values else values ++ [v]).any test) =
    (values.any test || test v) := by
    split
    · next hThere =>
      obtain ⟨w, hw, hSame⟩ := List.any_eq_true.mp hThere
      cases hAny : values.any test with
      | true => rfl
      | false => 
        have hNone := List.any_eq_false.mp hAny w hw
        rw [hTest w hw hSame]
        simpa using hNone
    · simp
  cases v with
  | scalar value => cases value <;> first | exact hAdded | simp [addValue, Value.isNull]
  | _ => exact hAdded

theorem mem_addValue {values : List Value} {v w : Value} (h : w ∈ addValue values v) :
    w ∈ values ∨ w = v := by
  unfold addValue at h
  split at h
  · exact .inl h
  · split at h
    · exact .inl h
    · simpa using h

/-- Equal values pass alike. -/
def Respects (test : Value → Bool) : Prop :=
  ∀ v w, v.isPlain = true → w.isPlain = true → v.same w = true → test v = test w

theorem foldl_addValue {read : List Value} (hRead : ∀ v ∈ read, v.isPlain = true) {seen : List Value}
    (hSeen : ∀ v ∈ seen, v.isPlain = true) :
    (∀ v ∈ read.foldl addValue seen, v.isPlain = true) ∧ ∀ test, Respects test →
      (read.foldl addValue seen).any test = (seen.any test || read.any fun v => !v.isNull && test v) := by
  induction read generalizing seen with
  | nil => exact ⟨hSeen, fun test _ => by simp⟩
  | cons v rest ih =>
    obtain ⟨hv, hRest⟩ := List.forall_mem_cons.mp hRead
    have hAdded : ∀ w ∈ addValue seen v, w.isPlain = true := fun w hw =>
      (mem_addValue hw).elim (hSeen w) fun hSame => hSame ▸ hv
    obtain ⟨hPlain, hAny⟩ := ih hRest hAdded
    refine ⟨hPlain, fun test hTest => ?_⟩
    rw [List.foldl_cons, hAny test hTest, any_addValue test seen fun w hw => hTest v w hv (hSeen w hw),
      List.any_cons, Bool.or_assoc]

theorem mapM_typed {key : String} {records : List Record}
    (h : ∀ r ∈ records, ∃ v, r.typed key = .ok v ∧ v.isPlain = true) :
    ∃ read, records.mapM (fun r => r.typed key) = .ok read ∧ (∀ v ∈ read, v.isPlain = true) ∧
      ∀ test : Value → Bool, (read.any fun v => !v.isNull && test v) = records.any (offers · key test) := by
  induction records with
  | nil => exact ⟨[], rfl, by simp, fun _ => rfl⟩
  | cons r rest ih =>
    obtain ⟨hr, hRest⟩ := List.forall_mem_cons.mp h
    obtain ⟨v, hTyped, hPlain⟩ := hr
    obtain ⟨read, hMap, hRead, hAny⟩ := ih hRest
    refine ⟨v :: read, ?_, List.forall_mem_cons.mpr ⟨hPlain, hRead⟩, fun test => ?_⟩
    · rw [List.mapM_cons, hTyped, hMap]
      rfl
    · rw [List.any_cons, List.any_cons, hAny, offers, hTyped]

/-- The distinct values of a plain field stand for all of them. -/
theorem valuesOf_eq {key : String} {records : List Record}
    (h : ∀ r ∈ records, ∃ v, r.typed key = .ok v ∧ v.isPlain = true) :
    ∃ values, valuesOf key records = .ok values ∧ (∀ v ∈ values, v.isPlain = true) ∧
      ∀ test, Respects test → values.any test = records.any (offers · key test) := by
  obtain ⟨read, hMap, hPlain, hAny⟩ := mapM_typed h
  have hNone : ∀ v ∈ ([] : List Value), v.isPlain = true := by simp
  obtain ⟨hValues, hFound⟩ := foldl_addValue hPlain hNone
  refine ⟨read.foldl addValue [], ?_, hValues, fun test hTest => ?_⟩
  · rw [valuesOf, hMap]
    rfl
  · rw [hFound test hTest, List.any_nil, Bool.false_or, hAny]

theorem containsField_valuesOf {r : Record} {key matchKey : String} {records : List Record}
    {values : List Value}
    (hLookup : canBeLookedUp r key = true)
    (hTyped : ∀ other ∈ records, ∃ v, other.typed matchKey = .ok v ∧ v.isPlain = true)
    (hValues : valuesOf matchKey records = .ok values) :
    containsField r key values = .ok (records.any fun other => meets r key other matchKey) := by
  obtain ⟨candidates, hCandidates, hKeys⟩ := exists_of_canBeLookedUp hLookup
  obtain ⟨found, hFound, hPlain, hAny⟩ := valuesOf_eq hTyped
  rw [hFound] at hValues
  cases hValues
  have hEach : ∀ other ∈ records,
      offers other matchKey (fun v => candidates.any fun c => matchesElement c v) =
        meets r key other matchKey := by
    intro other hOther
    obtain ⟨v, hv, hvPlain⟩ := hTyped other hOther
    have hOne : isMet r (.oneOf key [v]) = candidates.any fun c => matchesElement c v := by
      rw [isMet, holds, containsField_eq hCandidates hKeys (by simpa using Value.isKey_of_isPlain hvPlain)]
      simp
    rw [meets, offers, offers, hv]
    simp only [hOne]
  rw [containsField_eq hCandidates hKeys fun v hv => Value.isKey_of_isPlain (hPlain v hv),
    hAny _ fun v w hv hw hSame => congrArg candidates.any (funext (matchesElement_congr hv hw hSame))]
  refine congrArg Except.ok (Bool.eq_iff_iff.mpr ?_)
  simp only [List.any_eq_true]
  exact exists_congr fun other => and_congr_right fun hOther => by rw [hEach other hOther]

/-! ### Runs -/

variable {s t u : Session κ α} {n : Nat}

theorem runs_store (className : String) (window : Json) (s : Session κ α) :
    Runs (store className window) s (.ok (s.registry.store className window).1)
      { s with registry := (s.registry.store className window).2 } := rfl

theorem runs_orNothing {β : Type} {work : Work κ α (Option β)} {found : Option β}
    (h : Runs work s (.ok found) t) :
    Runs (orNothing work) s (.ok found) t := by
  rw [orNothing]
  exact .bind (runs_attempt h) (.ret _ _)

theorem runs_orNothing_fails {β : Type} {work : Work κ α (Option β)} {e : Error}
    (h : Runs work s (.error e) t)
    (hCache : e.isCache = true) : Runs (orNothing work) s (.ok none) t := by
  rw [orNothing]
  refine .bind (runs_attempt h) ?_
  simp only [hCache, if_true]
  exact .ret _ _

theorem runs_orNothing_throws {β : Type} {work : Work κ α (Option β)} {e : Error} (h : Runs work s (.error e) t)
    (hCache : e.isCache = false) : Runs (orNothing work) s (.error e) t := by
  rw [orNothing]
  refine .bind (runs_attempt h) ?_
  simp only [hCache]
  exact .fail e t

theorem runs_matchLocalBy_resolved {conditions resolved : ConstraintSet} {freshness : Freshness}
    {resolving : Work κ α ConstraintSet} {ref : StoreRef} {records : List Record} {disk : Disk}
    (hLocal : conditions.allowsLocal = true)
    (hStore : Runs (storeFor conditions.className freshness) s (.ok (some ref)) t)
    (hLoad : Runs ref.store.loadAll t.disk (.ok records) disk)
    (hResolve : Runs resolving { t with disk } (.ok resolved) u) :
    Runs (matchLocalBy conditions freshness resolving) s (some <$> resolved.filter records) u := by
  have hSearch : Runs (searchable (some ref) conditions resolving) t
    (.ok (some (records, resolved))) u := by
    rw [searchable, if_pos hLocal]
    exact runs_orNothing (.bind (runs_serve hLoad) (.bind hResolve (.ret _ _)))
  rw [matchLocalBy]
  refine .bind hStore (.bind hSearch ?_)
  exact (runs_ofExcept (resolved.filter records) u).map some

theorem runs_matchLocalBy {conditions resolved : ConstraintSet} {freshness : Freshness}
    {resolving : Work κ α ConstraintSet} {ref : StoreRef} {records : List Record} {disk : Disk}
    {p : Record → Bool}
    (hLocal : conditions.allowsLocal = true)
    (hStore : Runs (storeFor conditions.className freshness) s (.ok (some ref)) t)
    (hLoad : Runs ref.store.loadAll t.disk (.ok records) disk)
    (hResolve : Runs resolving { t with disk } (.ok resolved) u)
    (hHolds : ∀ r ∈ records, resolved.holds r = .ok (p r)) :
    Runs (matchLocalBy conditions freshness resolving) s (.ok (some (records.filter p))) u := by
  have hFilter : resolved.filter records = .ok (records.filter p) := filterM_eq hHolds
  have hRun := runs_matchLocalBy_resolved hLocal hStore hLoad hResolve
  rwa [hFilter] at hRun

theorem runs_matchLocalBy_remote {conditions : ConstraintSet} {freshness : Freshness}
    {resolving : Work κ α ConstraintSet} {found : Option StoreRef}
    (hStore : Runs (storeFor conditions.className freshness) s (.ok found) t)
    (h : found = none ∨ conditions.allowsLocal = false) :
    Runs (matchLocalBy conditions freshness resolving) s (.ok none) t := by
  have hSearch : Runs (searchable found conditions resolving) t (.ok none) t := by
    cases found with
    | none => exact .ret _ _
    | some ref =>
      obtain hNone | hRemote := h
      · cases hNone
      · rw [searchable, hRemote]
        exact .ret _ _
  rw [matchLocalBy]
  exact .bind hStore (.bind hSearch (.ret _ _))

theorem runs_matchLocalBy_unread {conditions : ConstraintSet} {freshness : Freshness}
    {resolving : Work κ α ConstraintSet} {ref : StoreRef} {disk : Disk} {e : Error}
    (hLocal : conditions.allowsLocal = true)
    (hStore : Runs (storeFor conditions.className freshness) s (.ok (some ref)) t)
    (hLoad : Runs ref.store.loadAll t.disk (.error e) disk) (hCache : e.isCache = true) :
    Runs (matchLocalBy conditions freshness resolving) s (.ok none) { t with disk } := by
  have hSearch : Runs (searchable (some ref) conditions resolving) t (.ok none) { t with disk } := by
    rw [searchable, if_pos hLocal]
    exact runs_orNothing_fails (.bind_fail (runs_serve hLoad)) hCache
  rw [matchLocalBy]
  exact .bind hStore (.bind hSearch (.ret _ _))

theorem runs_matchLocalBy_unresolved {conditions : ConstraintSet} {freshness : Freshness}
    {resolving : Work κ α ConstraintSet} {ref : StoreRef} {records : List Record} {disk : Disk} {e : Error}
    (hLocal : conditions.allowsLocal = true)
    (hStore : Runs (storeFor conditions.className freshness) s (.ok (some ref)) t)
    (hLoad : Runs ref.store.loadAll t.disk (.ok records) disk)
    (hResolve : Runs resolving { t with disk } (.error e) u) (hCache : e.isCache = false) :
    Runs (matchLocalBy conditions freshness resolving) s (.error e) u := by
  have hSearch : Runs (searchable (some ref) conditions resolving) t (.error e) u := by
    rw [searchable, if_pos hLocal]
    exact runs_orNothing_throws (.bind (runs_serve hLoad) hResolve.bind_fail) hCache
  rw [matchLocalBy]
  exact .bind hStore (.bind_fail hSearch)

theorem runs_found {inner : ConstraintSet} {resolving : Work κ α ConstraintSet} {m : Nat}
    (hServes : Serves db inners s (n + (m + 1))) (hInner : inner ∈ inners)
    (hResolve : inner.allowsLocal = true → ∀ t : Session κ α, Serves db inners t (n + m) → ∃ resolved u,
      Runs resolving t (.ok resolved) u ∧ Serves db inners u n ∧
        ∀ r ∈ db.records inner.className, resolved.holds r = .ok (setSatisfies db r inner)) :
    ∃ found t, Runs (matchLocalBy inner .asRegistered resolving) s (.ok found) t ∧
      ∃ u, Runs (match found with | some records => pure records | none => fetchAll inner) t
        (.ok ((db.records inner.className).filter fun r => setSatisfies db r inner)) u ∧
          Serves db inners u n := by
  have hStore := runs_store inner.className .null s
  have hReading := fun k => hServes.reading inner.className .null k
  have hAsk (t : Session κ α) (ht : Serves db inners t (n + (m + 1))) :=
    (ht.mono (by omega : n + 1 ≤ _)).fetching hInner
  cases hRef : (s.registry.store inner.className .null).1 with
  | none =>
    -- the class is not cached
    rw [hRef] at hStore
    exact ⟨none, _, runs_matchLocalBy_remote hStore (.inl rfl), hAsk _ (hReading s.disk.accesses)⟩
  | some ref =>
    rw [hRef] at hStore
    cases hLocal : inner.allowsLocal with
    | false =>
        exact ⟨none, _, runs_matchLocalBy_remote hStore (.inr hLocal), hAsk _ (hReading s.disk.accesses)⟩
    | true =>
      have hOwn : s.registry.own inner.className = some ref.store := by
        have hSame : s.registry.store inner.className .null = s.registry.ownStore inner.className := rfl
        rw [Registry.own, ← hSame, hRef]
        rfl
      -- its snapshot is all of its records, or cannot be read
      obtain ⟨r, k, hLoad, rfl | ⟨e, rfl, hCache⟩⟩ := hServes.cache _ _ hOwn s.disk.accesses
      · obtain ⟨resolved, u, hRun, hAfter, hHolds⟩ := hResolve hLocal _ ((hReading k).mono (by omega))
        exact ⟨some _, u, runs_matchLocalBy hLocal hStore hLoad hRun hHolds, u, .ret _ _, hAfter⟩
      · exact ⟨none, _, runs_matchLocalBy_unread hLocal hStore hLoad hCache, hAsk _ (hReading k)⟩

theorem runs_selectedValues {inner : ConstraintSet} {resolving : Work κ α ConstraintSet}
    {key matchKey : String}
    {records : List Record} {m : Nat} (hLookup : ∀ r ∈ records, canBeLookedUp r key = true)
    (hTyped : ∀ other ∈ db.records inner.className, ∃ v, other.typed matchKey = .ok v ∧ v.isPlain = true)
    (hServes : Serves db inners s (n + (m + 1))) (hInner : inner ∈ inners)
    (hResolve : inner.allowsLocal = true → ∀ t : Session κ α, Serves db inners t (n + m) → ∃ resolved u,
      Runs resolving t (.ok resolved) u ∧ Serves db inners u n ∧
        ∀ r ∈ db.records inner.className, resolved.holds r = .ok (setSatisfies db r inner)) :
    ∃ values t, Runs (selectedValues matchKey inner resolving) s (.ok values) t ∧ Serves db inners t n ∧
      ∀ r ∈ records, containsField r key values =
        .ok ((db.records inner.className).any fun other =>
          setSatisfies db other inner && meets r key other matchKey) := by
  have hFiltered : ∀ other ∈ (db.records inner.className).filter fun r => setSatisfies db r inner,
      ∃ v, other.typed matchKey = .ok v ∧ v.isPlain = true := fun other hOther =>
        hTyped other (List.mem_filter.mp hOther).1
  obtain ⟨values, hValues, -, -⟩ := valuesOf_eq hFiltered
  obtain ⟨found, t, hMatch, u, hFound, hAfter⟩ := runs_found hServes hInner hResolve
  refine ⟨values, u, ?_, hAfter, fun r hr => ?_⟩
  · have hEnd : Runs (ofData
      (valuesOf matchKey ((db.records inner.className).filter fun r => setSatisfies db r inner)) :
        Work κ α (List Value)) u (.ok values) u := by
      rw [hValues]
      exact runs_ofExcept _ _
    rw [selectedValues]
    cases found <;> exact .bind hMatch (.bind hFound hEnd)
  · rw [containsField_valuesOf (hLookup r hr) hFiltered hValues, List.any_filter]

mutual

theorem runs_resolveWith : ∀ {c : Constraint} {records : List Record} {n : Nat} {s : Session κ α},
    allowsLocal c = true → Evaluates db records c → (∀ inner ∈ innerSets c, inner ∈ inners) →
    Serves db inners s (n + (innerSets c).length) → ∃ resolved t,
      Runs (resolveWith selectedValues c) s (.ok resolved) t ∧ Serves db inners t n ∧
        ∀ r ∈ records, holds r resolved = .ok (satisfies db r c)
  | .equalTo .., _, n, s, _, hEvaluates, _, hServes =>
    ⟨_, s, .ret _ _, hServes, fun r hr => holds_eq_isMet (hEvaluates r hr)⟩
  | .greaterThan .., _, n, s, _, hEvaluates, _, hServes =>
    ⟨_, s, .ret _ _, hServes, fun r hr => holds_eq_isMet (hEvaluates r hr)⟩
  | .lessThan .., _, n, s, _, hEvaluates, _, hServes =>
    ⟨_, s, .ret _ _, hServes, fun r hr => holds_eq_isMet (hEvaluates r hr)⟩
  | .present .., _, n, s, _, hEvaluates, _, hServes =>
    ⟨_, s, .ret _ _, hServes, fun r hr => holds_eq_isMet (hEvaluates r hr)⟩
  | .matching .., _, n, s, _, hEvaluates, _, hServes =>
    ⟨_, s, .ret _ _, hServes, fun r hr => holds_eq_isMet (hEvaluates r hr)⟩
  | .oneOf .., _, n, s, _, hEvaluates, _, hServes =>
    ⟨_, s, .ret _ _, hServes, fun r hr => holds_eq_isMet (hEvaluates r hr)⟩
  | .noneOf .., _, n, s, _, hEvaluates, _, hServes =>
    ⟨_, s, .ret _ _, hServes, fun r hr => holds_eq_isMet (hEvaluates r hr)⟩
  | .relatedTo .., _, _, _, hLocal, _, _, _ => by cases hLocal
  | .either left right, records, n, s, hLocal, hEvaluates, hInner, hServes => by
    rw [allowsLocal, Bool.and_eq_true] at hLocal
    rw [innerSets, List.length_append] at hServes
    -- each inner set may take one answer of the server, those of the left side first
    obtain ⟨hLeft, hRight⟩ := List.forall_mem_append.mp hInner
    obtain ⟨first, t, hRun, hAfter, hHolds⟩ := runs_resolveSetWith hLocal.1 hEvaluates.1 hLeft
      (hServes.mono (by omega : n + (setInnerSets right).length + (setInnerSets left).length ≤ _))
    obtain ⟨second, u, hMore, hEnd, hAll⟩ := runs_resolveSetWith hLocal.2 hEvaluates.2 hRight hAfter
    refine ⟨.either first second, u, ?_, hEnd, fun r hr => ?_⟩
    · rw [resolveWith]
      exact hRun.bind (hMore.bind (.ret _ _))
    · rw [holds, satisfies, hHolds r hr, hAll r hr]
      cases setSatisfies db r left <;> rfl
  | .selected key matchKey inner, records, n, s, hLocal, hEvaluates, hInner, hServes => by
    obtain ⟨hLookup, hTyped, hDeep⟩ := hEvaluates
    obtain ⟨hHere, hBelow⟩ := List.forall_mem_cons.mp hInner
    obtain ⟨values, t, hRun, hAfter, hContains⟩ := runs_selectedValues hLookup hTyped hServes hHere
      fun hInnerLocal t ht => runs_resolveSetWith hInnerLocal hDeep hBelow ht
    refine ⟨.oneOf key values, t, ?_, hAfter, fun r hr => ?_⟩
    · rw [resolveWith]
      exact hRun.bind (.ret _ _)
    · rw [holds, satisfies, hContains r hr]
  | .notSelected key matchKey inner, records, n, s, hLocal, hEvaluates, hInner, hServes => by
    obtain ⟨hLookup, hTyped, hDeep⟩ := hEvaluates
    obtain ⟨hHere, hBelow⟩ := List.forall_mem_cons.mp hInner
    obtain ⟨values, t, hRun, hAfter, hContains⟩ := runs_selectedValues hLookup hTyped hServes hHere
      fun hInnerLocal t ht => runs_resolveSetWith hInnerLocal hDeep hBelow ht
    refine ⟨.noneOf key values, t, ?_, hAfter, fun r hr => ?_⟩
    · rw [resolveWith]
      exact hRun.bind (.ret _ _)
    · rw [holds, satisfies, hContains r hr]
      rfl

theorem runs_resolveSetWith :
    ∀ {c : Conjunction Constraint} {records : List Record} {n : Nat} {s : Session κ α},
    setAllowsLocal c = true → SetEvaluates db records c → (∀ inner ∈ setInnerSets c, inner ∈ inners) →
    Serves db inners s (n + (setInnerSets c).length) → ∃ resolved t,
      Runs (resolveSetWith selectedValues c) s (.ok resolved) t ∧ Serves db inners t n ∧
        ∀ r ∈ records, setHolds r resolved = .ok (setSatisfies db r c)
  | ⟨className, constraints⟩, records, n, s, hLocal, hEvaluates, hInner, hServes => by
    obtain ⟨resolved, t, hRun, hAfter, hHolds⟩ := runs_resolveAllWith hLocal hEvaluates hInner hServes
    refine ⟨⟨className, resolved⟩, t, ?_, hAfter, fun r hr => ?_⟩
    · rw [resolveSetWith]
      exact hRun.bind (.ret _ _)
    · rw [setHolds, setSatisfies]
      exact hHolds r hr

theorem runs_resolveAllWith : ∀ {c : List Constraint} {records : List Record} {n : Nat} {s : Session κ α},
    allAllowLocal c = true → AllEvaluate db records c → (∀ inner ∈ allInnerSets c, inner ∈ inners) →
    Serves db inners s (n + (allInnerSets c).length) → ∃ resolved t,
      Runs (resolveAllWith selectedValues c) s (.ok resolved) t ∧ Serves db inners t n ∧
        ∀ r ∈ records, allHold r resolved = .ok (allSatisfied db r c)
  | [], _, n, s, _, _, _, hServes => ⟨[], s, .ret _ _, hServes, fun _ _ => rfl⟩
  | c :: rest, records, n, s, hLocal, hEvaluates, hInner, hServes => by
    rw [allAllowLocal, Bool.and_eq_true] at hLocal
    rw [allInnerSets, List.length_append] at hServes
    obtain ⟨hFirst, hRest⟩ := List.forall_mem_append.mp hInner
    obtain ⟨first, t, hRun, hAfter, hHolds⟩ :=
      runs_resolveWith hLocal.1 hEvaluates.1 hFirst
        (hServes.mono (by omega : n + (allInnerSets rest).length + (innerSets c).length ≤ _))
    obtain ⟨others, u, hMore, hEnd, hAll⟩ := runs_resolveAllWith hLocal.2 hEvaluates.2 hRest hAfter
    refine ⟨first :: others, u, ?_, hEnd, fun r hr => ?_⟩
    · rw [resolveAllWith]
      exact hRun.bind (hMore.bind (.ret _ _))
    · rw [allHold, allSatisfied, hHolds r hr, hAll r hr]
      cases satisfies db r c <;> rfl

end

/-- A local search gives the records of the snapshot that satisfy the set, in their order. Nothing else about
the cache matters: any other class may be cached, or expired, or unknown. -/
theorem runs_matchLocal {conditions : ConstraintSet} {freshness : Freshness} {ref : StoreRef} {k : Nat}
    (hLocal : conditions.allowsLocal = true)
    (hStore : Runs (storeFor conditions.className freshness) s (.ok (some ref)) t)
    (hSnapshot : Runs ref.store.loadAll s.disk (.ok (db.records conditions.className))
      { s.disk with accesses := k })
    (hEvaluates : SetEvaluates db (db.records conditions.className) conditions)
    (hServes : Serves db (setInnerSets conditions) s (setInnerSets conditions).length) :
    ∃ u, Runs (matchLocal conditions freshness) s
      (.ok (some ((db.records conditions.className).filter fun r => setSatisfies db r conditions))) u := by
  -- no snapshot is asked for when it may never be used; else only the registry changes
  have hRegistry : t = { s with registry := (s.registry.store conditions.className freshness.json).2 } := by
    cases freshness with
    | never =>
      obtain ⟨hNone, -⟩ := hStore.unique (.ret none s)
      cases hNone
    | asRegistered =>
      have hRun : Runs (storeFor conditions.className .asRegistered) s _ _ :=
        runs_store conditions.className .null s
      exact (hStore.unique hRun).2
    | within window =>
      have hRun : Runs (storeFor conditions.className (.within window)) s _ _ :=
        runs_store conditions.className window s
      exact (hStore.unique hRun).2
  subst hRegistry
  have hReading := hServes.reading conditions.className freshness.json k
  obtain ⟨resolved, u, hRun, -, hHolds⟩ := runs_resolveSetWith hLocal hEvaluates (fun _ h => h)
    (hReading.mono (by omega : 0 + (setInnerSets conditions).length ≤ _))
  exact ⟨u, runs_matchLocalBy hLocal hStore hSnapshot hRun hHolds⟩

/-- A page that is not full is the last one. -/
theorem runs_fetchAll_onePage {conditions : ConstraintSet} {w : Where} {answer : Call → Except Error Json}
    {rest : List (Call → Except Error Json)} {items : List Json} {records : List Record} {size : Number}
    (hCompose : conditions.compose = .ok w) (hServer : s.server = answer :: rest)
    (hAnswer : ∀ call, answer call = .ok (.object [("results", .array items)]))
    (hRecords : items.mapM Record.ofJson = .ok records) (hSize : s.pageSize.numeric? = some size)
    (hShort : (Number.int records.length).less size = true) :
    ∃ calls, Runs (fetchAll conditions) s (.ok records) { s with server := rest, calls } := by
  have hPage (params : Fields Json) : Runs (findRecords conditions.className params) s (.ok records)
      (s.asked [listing conditions.className params] rest) := runs_findRecords hServer ⟨_, hAnswer _, hRecords⟩
  have hPages (params : Fields Json) (limit : Nat) : ∃ calls,
      Runs (pagesFrom conditions.className params s.pageSize (fun _ => pure ()) (limit + 1) (.int 0)) s (.ok records)
        { s with server := rest, calls } := by
    refine ⟨s.calls ++ [.request "GET" (Schema.path conditions.className .null)
      (some (.object ((params.set "limit" s.pageSize).set "skip" (.number (.int 0)))))], ?_⟩
    rw [pagesFrom]
    refine .bind (hPage _) (.bind (.ret () _) ?_)
    simp only [hSize, hShort, if_true]
    exact .ret _ _
  obtain ⟨calls, hRun⟩ := hPages (if w.isEmpty then [] else [("where", .object w)]) s.server.length
  refine ⟨calls, ?_⟩
  rw [fetchAll, hCompose]
  refine .bind (runs_ofExcept _ s) ?_
  exact .bind (.state s) hRun

/-- A note that names its author. -/
def noteBy (id author : String) : Record :=
  Record.ofFields [("objectId", .string id), ("author", .string author)]

def author (name : String) (retired : Bool) : Record :=
  Record.ofFields [("name", .string name), ("retired", .bool retired)]

/-- Notes, and their authors. -/
def library : Database where
  records className :=
    if className = "Note" then [noteBy "n" "ann", noteBy "m" "bob"]
    else if className = "Author" then [author "ann" false, author "bob" true]
    else []
  related := fun _ _ _ => false

def retired : ConstraintSet := ⟨"Author", [.equalTo "retired" (.scalar (.bool true))]⟩

/-- The notes of authors who are retired. -/
def byRetired : ConstraintSet := ⟨"Note", [.selected "author" "name" retired]⟩

def noteStore : LocalStore := ⟨"Note", .int 60⟩

/-- Notes are cached; authors are asked for. -/
def reader : Session Unit Unit :=
  { disk := {
      blobs := [(⟨"Note", .string "n"⟩, ⟨.document (noteBy "n" "ann").json, 1000.0⟩),
        (⟨"Note", .string "m"⟩, ⟨.document (noteBy "m" "bob").json, 1000.0⟩),
        (⟨"Note", .string ".list"⟩, ⟨.document (LocalStore.index ["n", "m"]), 1000.0⟩)] }
    registry := { windows := [("Note", .int 60)] }
    server := [fun _ => .ok (.object [("results", .array [(author "bob" true).json])])]
    app := () }

theorem evaluates_byRetired : SetEvaluates library (library.records "Note") byRetired := by
  refine ⟨⟨by decide, ?_, ?_, trivial⟩, trivial⟩
  · intro other hOther
    obtain rfl | rfl : other = author "ann" false ∨ other = author "bob" true := by
      simpa [library, retired] using hOther
    · exact ⟨_, rfl, rfl⟩
    · exact ⟨_, rfl, rfl⟩
  · intro other hOther
    obtain rfl | rfl : other = author "ann" false ∨ other = author "bob" true := by
      simpa [library, retired] using hOther
    · exact ⟨_, rfl⟩
    · exact ⟨_, rfl⟩

theorem runs_loadAll_reader (k : Nat) : ∃ k', Runs noteStore.loadAll { reader.disk with accesses := k }
    (.ok (library.records "Note")) { reader.disk with accesses := k' } := by
  have hBears (key : String) : ({ reader.disk with accesses := k } : Disk).Bears "Note" key :=
    Disk.bears_of_kind (fun h => by cases h) _ _
  have hFresh : noteStore.outlived (1000.0 - 1000.0) = false := by decide +kernel
  have hAll : noteStore.allIn { reader.disk with accesses := k } = .ok (library.records "Note") :=
    LocalStore.allIn_of_fresh rfl hFresh (.cons ⟨⟨_, by rfl, rfl⟩, _, rfl, hFresh⟩
      (.cons ⟨⟨_, by rfl, rfl⟩, _, rfl, hFresh⟩ .nil))
  obtain ⟨k', hRun⟩ := LocalStore.runs_loadAll (s := noteStore) rfl (hBears _)
    (fun _ _ _ _ => hBears _) fun _ => rfl
  exact ⟨k', hAll ▸ hRun⟩

theorem serves_reader : Serves library (setInnerSets byRetired) reader 1 where
  cache className store hStore k := by
    by_cases hName : "Note" = className
    · subst hName
      cases hStore
      obtain ⟨k', hRun⟩ := runs_loadAll_reader k
      exact ⟨_, k', hRun, .inl rfl⟩
    · have hNone : reader.registry.own className = none := by
        simp [Registry.own, Registry.ownStore, reader, Assoc.get?_cons, hName]
      rw [hNone] at hStore
      cases hStore
  server inner hInner := by
    have hOnly : setInnerSets byRetired = [retired] := rfl
    rw [hOnly, List.mem_singleton] at hInner
    subst hInner
    refine ⟨[], fun s hServer hPage => ?_, trivial⟩
    have hSize : s.pageSize.numeric? = some (.int Paging.largestPage) := by
      rw [hPage]
      rfl
    have hShort : (Number.int 1).less (.int Paging.largestPage) = true := by decide +kernel
    exact runs_fetchAll_onePage rfl hServer (fun _ => rfl) rfl hSize hShort

theorem runs_matchLocal_byRetired :
    ∃ u, Runs (matchLocal byRetired .asRegistered) reader (.ok (some [noteBy "m" "bob"])) u := by
  have hFirst : setSatisfies library (noteBy "n" "ann") byRetired = false := by decide +kernel
  have hSecond : setSatisfies library (noteBy "m" "bob") byRetired = true := by decide +kernel
  have hFound : (library.records byRetired.className).filter (fun r => setSatisfies library r byRetired) =
      [noteBy "m" "bob"] := by
    change [noteBy "n" "ann", noteBy "m" "bob"].filter _ = _
    rw [List.filter_cons, List.filter_cons, hFirst, hSecond]
    rfl
  have hStore : Runs (storeFor byRetired.className .asRegistered) reader (.ok (some ⟨0, noteStore⟩)) _ :=
    runs_store "Note" .null reader
  obtain ⟨k, hSnapshot⟩ := runs_loadAll_reader 0
  obtain ⟨u, hRun⟩ := runs_matchLocal rfl hStore hSnapshot evaluates_byRetired serves_reader
  exact ⟨u, hFound ▸ hRun⟩

end Session

end RecordCache
