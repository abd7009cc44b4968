import RecordCache.Proofs.Client.Turns
import RecordCache.Proofs.Constraint.Failures
import RecordCache.Proofs.LocalStore.Usable

/-!
# What queries do to a session

Queries are put together from few kinds of steps, sub-queries included, so what all of these steps do a query
does. They leave the disk as it is but for the count of its accesses; and they do not fail over the cache as
long as the server does not: a search that fails over the cache gives nothing instead.
-/

namespace RecordCache.Session

variable {κ α β γ : Type}

/-- The steps of asking the server do so, and so does what is put together from work that does. -/
structure Asks (Q : (β : Type) → Work κ α β → Prop) : Prop where
  ret : ∀ {β : Type} (b : β), Q β (pure b)
  bind : ∀ {β γ : Type} {work : Work κ α β} {next : β → Work κ α γ}, Q β work → (∀ b, Q γ (next b)) →
    Q γ (work >>= next)
  ofExcept : ∀ {β : Type} {r : Except Error β}, FailsElsewhere r → Q β (ofExcept r)
  /-- The size of a page is known, and how many answers are to come. -/
  settings : ∀ {β : Type} {next : Json → Nat → Work κ α β}, (∀ size answers, Q β (next size answers)) →
    Q β (do let s ← get; next s.pageSize s.server.length)
  send : ∀ call, Q Json (send call)

/-- The steps of queries do so, and so does what is put together from work that does. -/
structure Spreads (Q : (β : Type) → Work κ α β → Prop) : Prop extends Asks Q where
  storeFor : ∀ className freshness, Q (Option StoreRef) (storeFor className freshness)
  search : ∀ (store : LocalStore) {resolving : Work κ α ConstraintSet}, Q ConstraintSet resolving →
    Q (Option (List Record × ConstraintSet)) (orNothing do
      let records ← serve store.loadAll
      return some (records, ← resolving))

/-! ### From the server -/

namespace Asks

variable {Q : (β : Type) → Work κ α β → Prop} (h : Asks Q)
include h

theorem fail {e : Error} (hError : e.isCache = false) : Q β (throw e) := h.ofExcept (.fail hError)

theorem ofData (r : Except DataFault β) : Q β (Session.ofData r) := h.ofExcept (FailsElsewhere.ofData r)

theorem map {work : Work κ α β} (f : β → γ) (hWork : Q β work) : Q γ (f <$> work) := by
  rw [map_eq_pure_bind]
  exact h.bind hWork fun b => h.ret (f b)

theorem field? (answer : Json) (key : String) : Q (Option Json) (Session.field? answer key) := by
  cases answer with
  | object fields => exact h.ret (Assoc.get? fields key)
  | _ => exact h.fail rfl

theorem findRecords (className : String) (params : Fields Json) :
    Q (List Record) (Session.findRecords className params) := by
  refine h.bind (h.send _) fun answer => h.bind (h.field? answer _) fun results => ?_
  cases results with
  | none => exact h.ret []
  | some results => exact h.ofData _

theorem pagesFrom {visit : List Record → Work κ α Unit} (hVisit : ∀ page, Q Unit (visit page))
    (className : String) (params : Fields Json) (size : Json) (limit : Nat) (skip : Number) :
    Q (List Record) (Session.pagesFrom className params size visit limit skip) := by
  induction limit generalizing skip with
  | zero => exact h.ret []
  | succ limit ih =>
    rw [Session.pagesFrom]
    refine h.bind (h.findRecords _ _) fun page => h.bind (hVisit page) fun _ => ?_
    split
    · exact h.fail rfl
    · split
      · exact h.ret page
      · split
        · exact h.fail rfl
        · exact h.bind (ih _) fun rest => h.ret (page ++ rest)

theorem fetchPages (className : String) (params : Fields Json) :
    Q (List Record) (Session.fetchPages className params) := by
  have hPages (size : Json) (answers : Nat) :
      Q (List Record) (Session.pagesFrom className params size (fun _ => pure ()) (answers + 1) (.int 0)) :=
    h.pagesFrom (fun _ => h.ret ()) _ _ _ _ _
  exact h.settings hPages

theorem fetchAll (conditions : ConstraintSet) : Q (List Record) (Session.fetchAll conditions) :=
  h.bind (h.ofExcept conditions.failsElsewhere_compose) fun _ => h.fetchPages _ _

theorem mapM {work : γ → Work κ α β} (hWork : ∀ x, Q β (work x)) (xs : List γ) : Q (List β) (xs.mapM work) := by
  induction xs with
  | nil =>
    rw [List.mapM_nil]
    exact h.ret []
  | cons x rest ih =>
    rw [List.mapM_cons]
    exact h.bind (hWork x) fun b => h.bind ih fun bs => h.ret (b :: bs)

theorem fetchMany (className : String) (ids : List Json) : Q (List Record) (Session.fetchMany className ids) := by
  have hChunk (chunk : List Json) : Q (List Record) (Session.fetchChunk className chunk) :=
    h.bind (h.ofExcept (ConstraintSet.failsElsewhere_compose _)) fun _ => h.findRecords className _
  have hChunks (size : Json) (_ : Nat) : Q (List Record) (do
      let size ← Session.ofData (Paging.count size)
      return (← (chunks size ids).mapM (fetchChunk className)).flatten) :=
    h.bind (h.ofData _) fun _ => h.bind (h.mapM hChunk _) fun pages => h.ret pages.flatten
  exact h.settings hChunks

end Asks

/-! ### From the cache -/

namespace Spreads

variable {Q : (β : Type) → Work κ α β → Prop} (h : Spreads Q)
include h

theorem matchLocalBy (conditions : ConstraintSet) (freshness : Freshness) {resolving : Work κ α ConstraintSet}
    (hResolving : Q ConstraintSet resolving) :
    Q (Option (List Record)) (Session.matchLocalBy conditions freshness resolving) := by
  refine h.bind (h.storeFor _ _) fun store => h.bind ?_ fun found => ?_
  · cases store with
    | none => exact h.ret none
    | some ref =>
      rw [searchable]
      split
      · exact h.search ref.store hResolving
      · exact h.ret none
  · cases found with
    | none => exact h.ret none
    | some found =>
      exact h.bind (h.ofExcept (ConstraintSet.failsElsewhere_filter _ _)) fun matched => h.ret (some matched)

theorem selectedValues (key : String) (inner : ConstraintSet) {resolving : Work κ α ConstraintSet}
    (hResolving : Q ConstraintSet resolving) : Q (List Value) (Session.selectedValues key inner resolving) := by
  refine h.bind (h.matchLocalBy inner .asRegistered hResolving) fun found => ?_
  cases found with
  | none => exact h.bind (h.fetchAll inner) fun records => h.ofData _
  | some records => exact h.bind (h.ret records) fun records => h.ofData _

mutual

theorem resolveWith : ∀ c : Constraint, Q Constraint (Constraint.resolveWith Session.selectedValues c)
  | .equalTo _ _ _ => h.ret _
  | .greaterThan _ _ => h.ret _
  | .lessThan _ _ => h.ret _
  | .present _ _ => h.ret _
  | .matching _ _ => h.ret _
  | .oneOf _ _ => h.ret _
  | .noneOf _ _ => h.ret _
  | .relatedTo _ _ => h.ret _
  | .either left right => by
    rw [Constraint.resolveWith]
    exact h.bind (resolveSetWith left) fun left => h.bind (resolveSetWith right) fun right => h.ret _
  | .selected key matchKey inner => by
    rw [Constraint.resolveWith]
    exact h.bind (h.selectedValues matchKey inner (resolveSetWith inner)) fun values => h.ret _
  | .notSelected key matchKey inner => by
    rw [Constraint.resolveWith]
    exact h.bind (h.selectedValues matchKey inner (resolveSetWith inner)) fun values => h.ret _

theorem resolveSetWith : ∀ s : Conjunction Constraint,
    Q (Conjunction Constraint) (Constraint.resolveSetWith Session.selectedValues s)
  | ⟨_, constraints⟩ => by
    rw [Constraint.resolveSetWith]
    exact h.bind (resolveAllWith constraints) fun constraints => h.ret _

theorem resolveAllWith : ∀ constraints : List Constraint,
    Q (List Constraint) (Constraint.resolveAllWith Session.selectedValues constraints)
  | [] => h.ret []
  | c :: rest => by
    rw [Constraint.resolveAllWith]
    exact h.bind (resolveWith c) fun c => h.bind (resolveAllWith rest) fun rest => h.ret _

end

theorem runLocal (q : Query) : Q (Option Answer) (Session.runLocal q) := by
  rw [Session.runLocal]
  cases q.allowsLocal with
  | false => exact h.ret none
  | true =>
    refine h.bind (h.matchLocalBy q.conditions q.freshness (h.resolveSetWith q.conditions)) fun found => ?_
    cases found with
    | none => exact h.ret none
    | some records =>
      cases q.counting with
      | true => exact h.ret (some (Answer.counted records.length))
      | false =>
        exact h.bind (h.ofExcept (q.failsElsewhere_present records)) fun shown => h.ret (some (Answer.found shown))

theorem data (q : Query) : Q Answer (Session.data q) := by
  refine h.bind (h.runLocal q) fun answer => ?_
  cases answer with
  | some answer => exact h.ret answer
  | none =>
    exact h.bind (h.ofExcept (Query.failsElsewhere_compose _)) fun params =>
      h.bind (h.findRecords _ _) fun records => h.ret _

theorem count (q : Query) : Q Json (Session.count q) := by
  refine h.bind (h.runLocal _) fun answer => ?_
  match answer with
  | some (.counted n) => exact h.ret _
  | some (.found records) => exact h.ret _
  | none =>
    exact h.bind (h.ofExcept (Query.failsElsewhere_compose _)) fun params => h.bind (h.send _) fun answer =>
      h.bind (h.field? answer _) fun n => h.ret _

end Spreads

/-! ### The disk -/

/-- What each step of a query does to the session its run does. -/
theorem Spreads.moves {R : Session κ α → Session κ α → Prop} (hTrans : ∀ s t u, R s t → R t u → R s u)
    (hAside : ∀ s t, t.disk = s.disk ∧ t.registry = s.registry → R s t)
    (hStore : ∀ s className window, R s { s with registry := (s.registry.store className window).2 })
    (hRead : ∀ s k, R s { s with disk := { s.disk with accesses := k } }) :
    Spreads fun β (work : Work κ α β) => Moves R work := by
  have hRefl (s : Session κ α) : R s s := hAside s s ⟨rfl, rfl⟩
  have of_aside {β : Type} {work : Work κ α β} (h : Aside work) : Moves R work :=
    fun s result t hRun => hAside s t (h s result t hRun)
  have hKept (className : String) (window : Json) :
      Moves R (Session.store className window : Work κ α (Option StoreRef)) :=
    Moves.of_runs fun s => ⟨_, _, runs_store className window s, hStore s className window⟩
  have hServe (store : LocalStore) : Moves R (Session.serve store.loadAll : Work κ α (List Record)) := by
    intro s result t hRun
    obtain ⟨disk, hLoad, rfl⟩ := exists_of_serve hRun
    obtain ⟨k, rfl⟩ := LocalStore.OnlyReads.loadAll store _ _ _ hLoad
    exact hRead s k
  refine {
    ret := Moves.ret hRefl
    bind := Moves.bind hTrans
    ofExcept := fun _ => of_aside (Aside.ofExcept _)
    settings := fun h => Moves.bind hTrans (Moves.of_runs fun s => ⟨_, s, .state s, hRefl s⟩) fun s =>
      h s.pageSize s.server.length
    send := fun call => of_aside (Aside.send call)
    storeFor := fun className freshness => ?_
    search := fun store resolving h => ?_ }
  · cases freshness with
    | never => exact Moves.ret hRefl none
    | asRegistered => exact hKept className .null
    | within window => exact hKept className window
  · have hSearch : Moves R (do
        let records ← Session.serve store.loadAll
        return some (records, ← resolving)) :=
      Moves.bind hTrans (hServe store) fun _ => Moves.bind hTrans h fun _ => Moves.ret hRefl _
    refine Moves.bind hTrans (moves_attempt hSearch) fun outcome => ?_
    split
    · split
      · exact Moves.ret hRefl none
      · exact of_aside (Aside.ofExcept (.error _))
    · exact Moves.ret hRefl _

/-- Whatever the work comes to, accesses to the disk have only been counted. -/
def OnlyReads (work : Work κ α β) : Prop :=
  ∀ s result t, Runs work s result t → ∃ k, t.disk = { s.disk with accesses := k }

theorem OnlyReads.spreads : Spreads fun β (work : Work κ α β) => OnlyReads work :=
  Spreads.moves (fun s t u => LocalStore.OnlyReads.trans s.disk t.disk u.disk) (fun s _ h => ⟨s.disk.accesses, h.1⟩)
    (fun s _ _ => ⟨s.disk.accesses, rfl⟩) fun _ k => ⟨k, rfl⟩

theorem onlyReads_data (q : Query) : OnlyReads (data q : Work κ α Answer) := OnlyReads.spreads.data q

theorem onlyReads_count (q : Query) : OnlyReads (count q : Work κ α Json) := OnlyReads.spreads.count q

/-! ### Failures -/

/-- The server answers in its own way, and never with a failure of the cache. -/
def Speaks (s : Session κ α) : Prop := ∀ answer ∈ s.server, ∀ call, FailsElsewhere (answer call)

namespace Speaks

variable {s : Session κ α}

theorem orNothing {work : Work κ α (Option β)} (h : ∀ s r t, s.Speaks → Runs work s r t → t.Speaks) :
    GoesOn Speaks (Session.orNothing work) := by
  intro s r t hSpeaks hRun
  obtain ⟨outcome, u, hWork⟩ := Runs.exists_run work s
  have hLeft := h _ _ _ hSpeaks hWork
  match outcome with
  | .ok found =>
    obtain ⟨rfl, rfl⟩ := hRun.unique (runs_orNothing hWork)
    exact ⟨hLeft, .ret found⟩
  | .error e =>
    cases hCache : e.isCache with
    | true =>
      obtain ⟨rfl, rfl⟩ := hRun.unique (runs_orNothing_fails hWork hCache)
      exact ⟨hLeft, .ret none⟩
    | false =>
      obtain ⟨rfl, rfl⟩ := hRun.unique (runs_orNothing_throws hWork hCache)
      exact ⟨hLeft, .fail hCache⟩

theorem goesOn_send (call : Call) : GoesOn Speaks (Session.send call : Work κ α Json) := by
  intro s r t hSpeaks hRun
  have hLeft : ∀ answer ∈ s.server.tail, ∀ call, FailsElsewhere (answer call) :=
    fun answer hMem => hSpeaks answer (List.mem_of_mem_tail hMem)
  obtain ⟨rfl, rfl⟩ := hRun.unique (runs_send_reply call s)
  exact ⟨hLeft, of_reply (.fail rfl) fun answer hMem => hSpeaks answer hMem call⟩

theorem state : GoesOn Speaks (get : Work κ α (Session κ α)) :=
  .of_runs fun s hSpeaks => ⟨_, s, .state s, hSpeaks, .ret s⟩

theorem store (className : String) (window : Json) :
    GoesOn Speaks (Session.store className window : Work κ α (Option StoreRef)) :=
  .of_runs fun s hSpeaks => ⟨_, _, runs_store className window s, hSpeaks, .ret _⟩

theorem ofExcept {r : Except Error β} (h : FailsElsewhere r) : GoesOn Speaks (Session.ofExcept r : Work κ α β) :=
  .of_runs fun s hSpeaks => ⟨_, s, runs_ofExcept r s, hSpeaks, h⟩

theorem spreads : Spreads fun β (work : Work κ α β) => GoesOn Speaks work where
  ret := .ret
  bind := .bind
  ofExcept := ofExcept
  settings h := state.bind fun s => h s.pageSize s.server.length
  send := goesOn_send
  storeFor className freshness := by
    cases freshness with
    | never => exact .ret none
    | asRegistered => exact store className .null
    | within window => exact store className window
  search store resolving h := by
    refine orNothing fun s r t hSpeaks hRun => ?_
    obtain ⟨records, u, hServe, hRest⟩ | ⟨e, -, hServe⟩ := Runs.bind_iff.mp hRun
    · obtain ⟨disk, -, rfl⟩ := exists_of_serve hServe
      exact ((GoesOn.bind h fun resolved => .ret (some (records, resolved))) { s with disk } _ _ hSpeaks hRest).1
    · obtain ⟨disk, -, rfl⟩ := exists_of_serve hServe
      exact hSpeaks

end Speaks

end RecordCache.Session
