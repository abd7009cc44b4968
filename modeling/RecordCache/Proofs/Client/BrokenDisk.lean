import RecordCache.Proofs.Client.Deliveries
import RecordCache.Proofs.Client.Fetched

/-!
# A broken disk

A session is compared with the one that has another disk, healthy or not, with other blobs on it or the same. What is
created and deleted comes out the same on both, with all that is left behind but for the disk. An update asks for the
same; what it finds in the cache is another matter. A population asks for the same and comes to the same, and after
that the same callers are told of it.
-/

namespace RecordCache

namespace Session

open LocalStore (Serving ComesTo)

variable {κ α β γ : Type} {s t : Session κ α}

/-! ### Populations, up to their callbacks -/

/-- Fetches a class and replaces its snapshot. -/
def renew (ref : StoreRef) (className : String) : Work κ α (List Record) := do
  let records ← fetchAll ⟨className, []⟩
  serve (ref.store.swap records)
  return records

/-- Ends a population; gives those who wait for it, with what they are to be told. -/
def release (ref : StoreRef) (fetched : Except Error (List Record)) :
    Work κ α (List κ × Except Error (List Record)) := do
  let s ← get
  set { s with populations := s.populations.erase ref.number }
  return ((s.populations.get? ref.number).getD [], fetched)

/-- All that populating does before its callbacks; one who joins a population in flight tells nobody. -/
def gather (className : String) (callback : Option κ) : Work κ α (List κ × Except Error (List Record)) := do
  match ← ownStore className with
  | none => return ([], .error (.notCached className))
  | some ref =>
    let s ← get
    let flying := s.populations.get? ref.number
    set { s with populations := s.populations.set ref.number (flying.getD [] ++ callback.toList) }
    if flying.isSome then return ([], .ok []) else release ref (← attempt (renew ref className))

/-- Tells those who wait for a population, and gives its records. -/
def conclude (notify : Notify κ α) (waiting : List κ) (outcome : Except Error (List Record)) :
    Work κ α (List Record) := do
  waiting.forM fun caller => notify caller (.records outcome)
  ofExcept outcome

theorem populate_eq (notify : Notify κ α) (className : String) (callback : Option κ) :
    populate notify className callback = gather className callback >>= fun g => conclude notify g.1 g.2 := by
  rw [populate, gather, bind_assoc]
  congr 1
  funext ref
  cases ref with
  | none => rfl
  | some ref =>
    dsimp only
    rw [populateBy]
    simp only [bind_assoc]
    refine bind_congr fun s => bind_congr fun _ => ?_
    cases s.populations.get? ref.number with
    | some waiting => rfl
    | none =>
      have hFirst : (Population.arrive none callback).1 = true := rfl
      simp [hFirst, release, renew, conclude, Population.complete]

/-! ### On another disk -/

/-- Each store has the window of its class, and what the server answers has a text. -/
structure Sound (s : Session κ α) : Prop where
  registry : s.registry.Consistent
  answers : s.AnswersWritable

/-- On every other disk the work comes to the same, and it leaves the same but for the disk. -/
def Blind (work : Work κ α β) : Prop :=
  ∀ (s : Session κ α) r (t : Session κ α), s.Sound → Runs work s r t →
    t.Sound ∧ ∀ d, ∃ d', Runs work { s with disk := d } r { t with disk := d' }

namespace Blind

theorem of_runs {work : Work κ α β}
    (h : ∀ s : Session κ α, s.Sound → ∃ (r : Except Error β) (t : Session κ α),
      t.Sound ∧ ∀ d, ∃ d', Runs work { s with disk := d } r { t with disk := d' }) :
    Blind work := by
  intro s r t hSound hRun
  obtain ⟨known, u, hLeft, hKnown⟩ := h s hSound
  obtain ⟨d', hOwn⟩ := hKnown s.disk
  obtain ⟨rfl, rfl⟩ := hRun.unique hOwn
  exact ⟨⟨hLeft.registry, hLeft.answers⟩, hKnown⟩

theorem ret (b : β) : Blind (pure b : Work κ α β) := of_runs fun s hSound => ⟨_, s, hSound, fun d => ⟨d, .ret b _⟩⟩

theorem ofExcept (r : Except Error β) : Blind (Session.ofExcept r : Work κ α β) :=
  of_runs fun s hSound => ⟨r, s, hSound, fun d => ⟨d, runs_ofExcept r _⟩⟩

/-- What follows may rely on what the work gives. -/
theorem bindKnown {P : β → Prop} {work : Work κ α β} {next : β → Work κ α γ} (h : Blind work)
    (hKnown : ∀ s b t, Sound s → Runs work s (.ok b) t → P b) (hNext : ∀ b, P b → Blind (next b)) :
    Blind (work >>= next) := by
  intro s r t hSound hRun
  obtain ⟨b, u, hFirst, hRest⟩ | ⟨e, rfl, hFirst⟩ := Runs.bind_iff.mp hRun
  · obtain ⟨hLeft, hAlike⟩ := h _ _ _ hSound hFirst
    obtain ⟨hEnd, hRestAlike⟩ := hNext b (hKnown s b u hSound hFirst) _ _ _ hLeft hRest
    refine ⟨hEnd, fun d => ?_⟩
    obtain ⟨d₁, hFirst'⟩ := hAlike d
    obtain ⟨d₂, hRest'⟩ := hRestAlike d₁
    exact ⟨d₂, hFirst'.bind hRest'⟩
  · obtain ⟨hLeft, hAlike⟩ := h _ _ _ hSound hFirst
    exact ⟨hLeft, fun d => (hAlike d).imp fun _ hRun' => hRun'.bind_fail⟩

theorem bind {work : Work κ α β} {next : β → Work κ α γ} (h : Blind work) (hNext : ∀ b, Blind (next b)) :
    Blind (work >>= next) := h.bindKnown (P := fun _ => True) (fun _ _ _ _ _ => trivial) fun b _ => hNext b

theorem alter {f : Session κ α → Session κ α} (hDisk : ∀ s d, f { s with disk := d } = { f s with disk := d })
    (hSound : ∀ s, s.Sound → (f s).Sound) : Blind (modify f : Work κ α PUnit) :=
  of_runs fun s hLeft => ⟨.ok ⟨⟩, f s, hSound s hLeft, fun d => ⟨d, hDisk s d ▸ .alter f _⟩⟩

theorem send (call : Call) : Blind (Session.send call : Work κ α Json) := by
  refine of_runs fun s hSound => ?_
  have hSent : Sound (s.sent call) :=
    ⟨hSound.registry, fun answer hMem => hSound.answers answer (List.mem_of_mem_tail hMem)⟩
  exact ⟨s.reply call, _, hSent, fun d => ⟨d, runs_send_reply call { s with disk := d }⟩⟩

theorem asks : Asks fun β (work : Work κ α β) => Blind work where
  ret := ret
  bind := bind
  ofExcept _ := ofExcept _
  settings h := fun s r t hSound hRun => h s.pageSize s.server.length s r t hSound (Runs.of_get hRun)
  send := send

theorem attempt {work : Work κ α β} (h : Blind work) : Blind (Session.attempt work) := by
  intro s r t hSound hRun
  obtain ⟨outcome, u, hWork⟩ := Runs.exists_run work s
  obtain ⟨rfl, rfl⟩ := hRun.unique (runs_attempt hWork)
  obtain ⟨hLeft, hAlike⟩ := h _ _ _ hSound hWork
  exact ⟨hLeft, fun d => (hAlike d).imp fun _ => runs_attempt⟩

/-- Part of the session is read, and the session is changed, neither of which has to do with the disk. -/
theorem setting {g : Session κ α → γ} {f : Session κ α → Session κ α} {next : γ → Work κ α β}
    (hReads : ∀ s d, g { s with disk := d } = g s) (hDisk : ∀ s d, f { s with disk := d } = { f s with disk := d })
    (hSound : ∀ s, s.Sound → (f s).Sound) (hNext : ∀ c, Blind (next c)) :
    Blind (do let s ← get; set (f s); next (g s)) := by
  intro s r t hStart hRun
  obtain ⟨hLeft, hAlike⟩ := hNext (g s) (f s) r t (hSound s hStart) (run_of_set (Runs.of_get hRun))
  refine ⟨hLeft, fun d => ?_⟩
  obtain ⟨d', hNextRun⟩ := hAlike d
  refine ⟨d', .bind (.state _) (.bind (.put _ _) ?_)⟩
  rw [hReads, hDisk]
  exact hNextRun

/-- The store of a class tells the age of what it holds. -/
theorem ownStore {className : String} {next : Option StoreRef → Work κ α β}
    (h : ∀ ref, (∀ own, ref = some own → own.store.TellsAge) → Blind (next ref)) :
    Blind (Session.ownStore className >>= next) := by
  have hStore (s : Session κ α) : Runs (Session.ownStore className) s (.ok (s.registry.ownStore className).1)
      { s with registry := (s.registry.ownStore className).2 } := rfl
  refine bindKnown (of_runs fun s hSound => ?_) (fun s ref t hSound hRun own hOwn => ?_) h
  · have hLeft : Sound { s with registry := (s.registry.ownStore className).2 } :=
      ⟨(hSound.registry.ownStore className).1, hSound.answers⟩
    exact ⟨.ok (s.registry.ownStore className).1, _, hLeft, fun d => ⟨d, hStore { s with disk := d }⟩⟩
  · cases (hRun.unique (hStore s)).1
    exact hSound.registry.tellsAge hOwn

theorem serve {serving : Serving β} {r : Except Error β} (h : ComesTo serving r) :
    Blind (Session.serve serving : Work κ α β) := by
  refine of_runs fun s hSound => ⟨r, s, hSound, fun d => ?_⟩
  obtain ⟨d', hServing⟩ := h d
  exact ⟨d', runs_serve hServing⟩

theorem writes : Writes (fun β (work : Work κ α β) => Blind work) LocalStore.TellsAge where
  toAsks := asks
  ownStore className _ hNone hSome := ownStore fun ref hAge => by
    cases ref with
    | none => exact hNone
    | some ref => exact hSome ref (hAge ref rfl)
  persist hAge r listed := serve (.persist hAge r listed)
  remove hAge id := serve (.remove hAge id)
  relate _ := alter (fun _ _ => rfl) fun _ hSound => ⟨hSound.registry, hSound.answers⟩

theorem fetched {conditions : ConstraintSet} {next : List Record → Work κ α β}
    (h : ∀ records, (∀ r ∈ records, r.json.isWritable = true) → Blind (next records)) :
    Blind (fetchAll conditions >>= next) :=
  (asks.fetchAll conditions).bindKnown
    (fun _ records _ hSound hRun => (Yields.fetchAll conditions _ _ _ hSound.answers hRun).2 records rfl) h

theorem renew (ref : StoreRef) (className : String) :
    Blind (Session.renew ref className : Work κ α (List Record)) :=
  fetched fun records hWritable => (serve (.swap hWritable)).bind fun _ => ret records

theorem release (ref : StoreRef) (fetched : Except Error (List Record)) :
    Blind (Session.release ref fetched : Work κ α (List κ × Except Error (List Record))) :=
  setting (g := fun s => s.populations.get? ref.number)
    (f := fun s => { s with populations := s.populations.erase ref.number }) (fun _ _ => rfl) (fun _ _ => rfl)
    (fun _ hSound => ⟨hSound.registry, hSound.answers⟩) fun waiting => ret (waiting.getD [], fetched)

theorem gather (className : String) (callback : Option κ) :
    Blind (Session.gather className callback : Work κ α (List κ × Except Error (List Record))) := by
  refine ownStore fun ref _ => ?_
  cases ref with
  | none => exact ret _
  | some ref =>
    have hFlying (flying : Option (List κ)) : Blind (do
        if flying.isSome then return ([], .ok [])
        else Session.release ref (← Session.attempt (Session.renew ref className)) :
        Work κ α (List κ × Except Error (List Record))) := by
      cases flying with
      | some waiting => exact ret _
      | none => exact (renew ref className).attempt.bind (release ref)
    exact setting (g := fun s => s.populations.get? ref.number) (f := fun s => { s with
        populations := s.populations.set ref.number ((s.populations.get? ref.number).getD [] ++ callback.toList) })
      (fun _ _ => rfl) (fun _ _ => rfl) (fun _ hSound => ⟨hSound.registry, hSound.answers⟩) hFlying

end Blind

/-- On this disk the session takes the work as it does on its own: the result is the same, and so is all that is left
but for the disk. -/
def AlikeOn (d : Disk) (s : Session κ α) (work : Work κ α β) : Prop :=
  ∃ r t d', Runs work s r t ∧ Runs work { s with disk := d } r { t with disk := d' }

theorem Blind.alikeOn {work : Work κ α β} (h : Blind work) (hSound : s.Sound) (d : Disk) : AlikeOn d s work := by
  obtain ⟨r, t, hRun⟩ := Runs.exists_run work s
  obtain ⟨d', hAlike⟩ := (h s r t hSound hRun).2 d
  exact ⟨r, t, d', hRun, hAlike⟩

/-! ### Updates -/

/-- Whatever the work comes to, no request is made. -/
def Silent (work : Work κ α β) : Prop := Moves (fun s t => t.calls = s.calls) work

namespace Silent

theorem ret (b : β) : Silent (pure b : Work κ α β) := Moves.of_runs fun s => ⟨_, s, .ret b s, rfl⟩

theorem ofExcept (r : Except Error β) : Silent (Session.ofExcept r : Work κ α β) :=
  Moves.of_runs fun s => ⟨r, s, runs_ofExcept r s, rfl⟩

theorem bind {work : Work κ α γ} {next : γ → Work κ α β} (h : Silent work) (hNext : ∀ c, Silent (next c)) :
    Silent (work >>= next) := Moves.bind (fun _ _ _ h h' => h'.trans h) h hNext

theorem serve (serving : Serving β) : Silent (Session.serve serving : Work κ α β) := by
  intro s result t hRun
  obtain ⟨disk, -, rfl⟩ := exists_of_serve hRun
  rfl

theorem updateCached (b : Batch) (id answer : Json) :
    Silent (Session.updateCached b id answer : Work κ α (Option Record)) := by
  refine bind (Moves.of_runs fun s => ⟨_, _, runs_store b.className .null s, rfl⟩) fun ref => ?_
  cases ref with
  | none => exact ret none
  | some ref =>
    refine (serve _).bind fun cached => ?_
    cases cached with
    | none => exact ret none
    | some cached => exact (ofExcept _).bind fun raw => (ofExcept _).bind fun time => (serve _).bind fun _ => ret _

end Silent

/-- What is asked for first does not depend on the disk, and after that no request is made. -/
theorem calls_eq {first : Work κ α γ} {next : γ → Work κ α β} (h : Blind first) (hNext : ∀ c, Silent (next c))
    (hSound : s.Sound) {d : Disk} {r r' : Except Error β} {t' : Session κ α} (hRun : Runs (first >>= next) s r t)
    (hRun' : Runs (first >>= next) { s with disk := d } r' t') : t'.calls = t.calls := by
  obtain ⟨asked, u, hFirst⟩ := Runs.exists_run first s
  obtain ⟨d', hFirst'⟩ := (h s asked u hSound hFirst).2 d
  have hSilent {v w : Session κ α} {result : Except Error β} (hFirst : Runs first v asked w) {z : Session κ α}
      (hRun : Runs (first >>= next) v result z) : z.calls = w.calls := by
    obtain ⟨c, w', hSame, hRest⟩ | ⟨e, -, hFails⟩ := Runs.bind_iff.mp hRun
    · obtain ⟨-, rfl⟩ := hSame.unique hFirst
      exact hNext c _ _ _ hRest
    · obtain ⟨-, rfl⟩ := hFails.unique hFirst
      rfl
  exact (hSilent hFirst' hRun').trans (hSilent hFirst hRun).symm

/-- Checks a change and sends it; gives the id and the answer. -/
def sendUpdate (b : Batch) : Work κ α (Json × Json) := do
  let id ← ofExcept (b.existing "update")
  let answer ← request "PUT" (Schema.path b.className id) (some (← ofData b.compose))
  return (id, answer)

theorem update_eq (b : Batch) : (update b : Work κ α (Option Record)) = (do
    let (id, answer) ← sendUpdate b
    let record ← updateCached b id answer
    modify fun s => { s with relations := b.operations.foldl (updateRelation (refOf b id)) s.relations }
    return record) := by
  simp [update, sendUpdate]

theorem calls_update_eq (b : Batch) (hSound : s.Sound) {d : Disk} {r r' : Except Error (Option Record)}
    {t' : Session κ α} (hRun : Runs (update b) s r t) (hRun' : Runs (update b) { s with disk := d } r' t') :
    t'.calls = t.calls := by
  rw [update_eq] at hRun hRun'
  refine calls_eq ?_ (fun asked => ?_) hSound hRun hRun'
  · exact (Blind.ofExcept _).bind fun id => (Blind.ofExcept _).bind fun _ => (Blind.send _).bind fun _ => .ret _
  · exact (Silent.updateCached b _ _).bind fun record => Silent.bind (Moves.of_runs fun s => ⟨_, _, .alter _ s, rfl⟩)
      fun _ => .ret record

/-! ### Populations -/

/-- Populating makes its requests and leaves this session, whatever the callbacks do; then these callers are told of
this outcome. -/
def PopulatesTo (s : Session κ α) (className : String) (callback : Option κ) (u : Session κ α) (waiting : List κ)
    (outcome : Except Error (List Record)) : Prop :=
  ∀ notify r t, Runs (populate notify className callback) s r t ↔ Runs (conclude notify waiting outcome) u r t

/-- Callbacks that do nothing. -/
def idle : Notify κ α := fun _ _ => return ()

theorem calm_idle : Calm (idle : Notify κ α) := fun _ _ s _ hSpeaks => ⟨s, .ret () s, hSpeaks⟩

section Populations

variable {className : String} {callback : Option κ} {u : Session κ α} {waiting : List κ}
  {outcome : Except Error (List Record)}

theorem populatesTo_of_runs (h : Runs (gather className callback) s (.ok (waiting, outcome)) u) :
    PopulatesTo s className callback u waiting outcome := by
  intro notify r t
  rw [populate_eq]
  constructor
  · intro hRun
    obtain ⟨g, u', hGather, hRest⟩ | ⟨e, -, hGather⟩ := Runs.bind_iff.mp hRun
    · obtain ⟨hSame, rfl⟩ := hGather.unique h
      cases hSame
      exact hRest
    · cases (hGather.unique h).1
  · exact fun hRun => h.bind hRun

theorem populatesTo_of_fails {e : Error} (h : Runs (gather className callback) s (.error e) u) :
    PopulatesTo s className callback u [] (.error e) := by
  intro notify r t
  rw [populate_eq]
  have hEnd : Runs (conclude notify [] (.error e)) u (.error e) u := .bind (.ret _ u) (runs_ofExcept _ u)
  constructor
  · intro hRun
    obtain ⟨rfl, rfl⟩ := hRun.unique h.bind_fail
    exact hEnd
  · intro hRun
    obtain ⟨rfl, rfl⟩ := hRun.unique hEnd
    exact h.bind_fail

theorem exists_populatesTo (hSound : s.Sound) (className : String) (callback : Option κ) (d : Disk) :
    ∃ u d' waiting outcome, PopulatesTo s className callback u waiting outcome ∧
      PopulatesTo { s with disk := d } className callback { u with disk := d' } waiting outcome := by
  obtain ⟨gathered, u, hGather⟩ := Runs.exists_run (gather className callback) s
  obtain ⟨d', hGather'⟩ := (Blind.gather className callback s gathered u hSound hGather).2 d
  match gathered with
  | .ok (waiting, outcome) =>
    exact ⟨u, d', waiting, outcome, populatesTo_of_runs hGather, populatesTo_of_runs hGather'⟩
  | .error e => exact ⟨u, d', [], .error e, populatesTo_of_fails hGather, populatesTo_of_fails hGather'⟩

/-- What is left before the callbacks is what callbacks leave that do nothing. -/
theorem PopulatesTo.idle (h : PopulatesTo s className callback u waiting outcome) :
    Runs (populate idle className callback) s outcome u := by
  have hTold : Runs (waiting.forM fun caller => Session.idle caller (.records outcome)) u (.ok ()) u := by
    clear h
    induction waiting with
    | nil => exact .ret _ u
    | cons caller rest ih => exact .bind (.ret () u) ih
  exact (h _ outcome u).mpr (hTold.bind (runs_ofExcept outcome u))

theorem PopulatesTo.returns (h : PopulatesTo s className callback u waiting outcome) (hSpeaks : s.Speaks)
    {notify : Notify κ α} (hCalm : Calm notify) : ∃ t, Runs (populate notify className callback) s outcome t := by
  obtain ⟨-, hLeft, hFails⟩ :=
    echoes_populate calm_idle (fun _ _ _ => rfl) className callback _ _ _ hSpeaks h.idle
  have hTold : ∃ t, Runs (waiting.forM fun caller => notify caller (.records outcome)) u (.ok ()) t := by
    clear h
    induction waiting generalizing u with
    | nil => exact ⟨u, .ret _ u⟩
    | cons caller rest ih =>
      obtain ⟨v, hTold, hSpeaks⟩ := hCalm caller (.records outcome) u hFails hLeft
      exact (ih hSpeaks).imp fun _ => hTold.bind
  obtain ⟨t, hTold⟩ := hTold
  exact ⟨t, (h notify outcome t).mpr (hTold.bind (runs_ofExcept outcome t))⟩

end Populations

/-- A broken disk breaks no request, where the registry is as calls leave it and the server answers with documents. No
job fails over the cache, and no callback is told of such a failure: what it would do then makes no difference. On any
other disk, creating and deleting give the same and leave the same, an update makes the same requests, and populating
makes the same requests and gives the same records. -/
theorem unharmed_by_disk {notify notify' : Notify κ α} (hRegistry : s.registry.Consistent) (hSpeaks : s.Speaks)
    (hAnswers : s.AnswersWritable) (hCalm : Calm notify)
    (hClean : ∀ caller outcome, outcome.Clean → notify' caller outcome = notify caller outcome) (d : Disk) :
    (∀ (β : Type) (job : Job κ β) r t, Runs (job.perform notify) s r t →
      FailsElsewhere r ∧ Runs (job.perform notify') s r t) ∧
    (∀ b, AlikeOn d s (create b)) ∧
    (∀ b, AlikeOn d s (delete b)) ∧
    (∀ b r t r' t', Runs (update b) s r t → Runs (update b) { s with disk := d } r' t' → t'.calls = t.calls) ∧
    ∀ className callback, ∃ u d' waiting outcome t t',
      PopulatesTo s className callback u waiting outcome ∧
      PopulatesTo { s with disk := d } className callback { u with disk := d' } waiting outcome ∧
      Runs (populate notify className callback) s outcome t ∧
      Runs (populate notify className callback) { s with disk := d } outcome t' := by
  have hSound : s.Sound := ⟨hRegistry, hAnswers⟩
  refine ⟨fun β job r t hRun => ?_, fun b => (Blind.writes.create b).alikeOn hSound d, fun b =>
    (Blind.writes.delete b).alikeOn hSound d, fun b r t r' t' => calls_update_eq b hSound, fun className callback => ?_⟩
  · obtain ⟨hEcho, -, hFails⟩ := job.echoes hCalm hClean s r t hSpeaks hRun
    exact ⟨hFails, hEcho⟩
  · obtain ⟨u, d', waiting, outcome, hOwn, hOther⟩ := exists_populatesTo hSound className callback d
    obtain ⟨t, hRun⟩ := hOwn.returns hSpeaks hCalm
    obtain ⟨t', hRun'⟩ := hOther.returns hSpeaks hCalm
    exact ⟨u, d', waiting, outcome, t, t', hOwn, hOther, hRun, hRun'⟩

/-- All that callbacks are told. -/
def logged : Notify String (List (String × Delivery)) := fun caller delivery =>
  modify fun s => { s with app := s.app ++ [(caller, delivery)] }

/-- The same, but a population that fails over the cache is a failure of the callback. -/
def complaining : Notify String (List (String × Delivery)) := fun caller delivery =>
  match delivery with
  | .records (.error e) => if e.isCache then throw e else logged caller delivery
  | _ => logged caller delivery

/-- No write succeeds, and only every other read or removal. The server has two notes, and takes new ones. -/
def unsteady : Session String (List (String × Delivery)) where
  disk := { fails := fun access n => access = .write || n % 2 = 0 }
  registry := { windows := [("Note", .int 60)] }
  server := [fun
    | .request "POST" _ _ => .ok (.object [("objectId", .string "c")])
    | _ => .ok (.object [("results", .array (["a", "b"].map fun id => .object [("objectId", .string id)]))])]
  app := []

theorem consistent_unsteady : unsteady.registry.Consistent where
  numbers className window hWindow := by
    obtain ⟨-, rfl⟩ := Prod.mk.inj (List.mem_singleton.mp (Assoc.mem_of_get? hWindow))
    rfl
  kept _ _ hRef := nomatch hRef

theorem answers_unsteady :
    ∀ answer ∈ unsteady.server, ∀ call, ∃ j, answer call = .ok j ∧ j.isWritable = true := by
  intro answer hMem call
  obtain rfl := List.mem_singleton.mp hMem
  dsimp only
  split
  · exact ⟨_, rfl, rfl⟩
  · exact ⟨_, rfl, rfl⟩

theorem calm_logged : Calm logged := fun _ _ s _ hSpeaks => ⟨_, .alter _ s, hSpeaks⟩

theorem complaining_eq (caller : String) (outcome : Delivery) (h : outcome.Clean) :
    complaining caller outcome = logged caller outcome := by
  match outcome, h with
  | .record _, _ => rfl
  | .relation _, _ => rfl
  | .records (.ok _), _ => rfl
  | .records (.error e), h => exact if_neg (Bool.eq_false_iff.mp (h e rfl))

theorem unharmed_by_disk_unsteady :
    unsteady.registry.Consistent ∧ unsteady.Speaks ∧ unsteady.AnswersWritable ∧ Calm logged ∧
    (∀ caller outcome, outcome.Clean → complaining caller outcome = logged caller outcome) ∧
    (∃ records t t', records.map Record.objectId? = [some "a", some "b"] ∧
      Runs (populate complaining "Note" (some "list")) unsteady (.ok records) t ∧
      Runs (populate logged "Note" (some "list")) { unsteady with disk := {} } (.ok records) t') ∧
    ∃ r t d, r.objectId? = some "c" ∧ Runs (create { className := "Note" }) unsteady (.ok r) t ∧
      Runs (create { className := "Note" }) { unsteady with disk := {} } (.ok r) { t with disk := d } := by
  have hSpeaks : unsteady.Speaks := by
    intro answer hMem call
    obtain ⟨j, hAnswer, -⟩ := answers_unsteady answer hMem call
    exact hAnswer ▸ .ret j
  have hAnswers : unsteady.AnswersWritable := by
    intro answer hMem call j hAnswer
    obtain ⟨known, hKnown, hWritable⟩ := answers_unsteady answer hMem call
    cases hKnown.symm.trans hAnswer
    exact hWritable
  obtain ⟨hJobs, hCreate, -, -, hPopulate⟩ :=
    unharmed_by_disk consistent_unsteady hSpeaks hAnswers calm_logged complaining_eq {}
  refine ⟨consistent_unsteady, hSpeaks, hAnswers, calm_logged, complaining_eq, ?_, ?_⟩
  · obtain ⟨-, -, -, outcome, t, t', -, -, hRun, hRun'⟩ := hPopulate "Note" (some "list")
    have hOutcome : ((populate logged "Note" (some "list")).run.run unsteady).1.toOption.map
        (List.map Record.objectId?) = some [some "a", some "b"] := by decide +kernel
    rw [congrArg Prod.fst hRun] at hOutcome
    obtain ⟨records, hOk, hIds⟩ := Option.map_eq_some_iff.mp hOutcome
    obtain rfl := Except.toOption_eq_some_iff.mp hOk
    exact ⟨records, t, t', hIds, (hJobs _ (.populate "Note" (some "list")) _ _ hRun).2, hRun'⟩
  · obtain ⟨result, t, d, hRun, hRun'⟩ := hCreate { className := "Note" }
    have hResult : ((create { className := "Note" }).run.run unsteady).1.toOption.map Record.objectId? =
        some (some "c") := by decide +kernel
    rw [congrArg Prod.fst hRun] at hResult
    obtain ⟨r, hOk, hId⟩ := Option.map_eq_some_iff.mp hResult
    obtain rfl := Except.toOption_eq_some_iff.mp hOk
    exact ⟨r, t, d, hId, hRun, hRun'⟩

end Session

end RecordCache
