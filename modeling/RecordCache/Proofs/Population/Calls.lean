import RecordCache.Proofs.Client.Runs
import RecordCache.Proofs.Population.Flights

/-!
# Whoever populates a store flies once

`Session.populateBy` keeps to the schedules of `Flights.Run`, whatever its callbacks and fetches call in turn. With
that, `singleFlight_of_run` says of every schedule who is told, with what and in which order, what calls return, when
a fetch starts, and what becomes of the disk.
-/

namespace RecordCache

variable {κ α β : Type}

namespace Session

variable {notify : Notify κ α} {ref : StoreRef} {callback : Option κ} {fetch : Work κ α (List Record)}
  {s s' s'' : Session κ α}

theorem runs_populateBy_boards {callbacks : List κ} (hFlying : s.populations.get? ref.number = some callbacks) :
    Runs (populateBy notify ref callback fetch) s (.ok none)
      { s with populations := s.populations.set ref.number (callbacks ++ callback.toList) } := by
  refine .bind (.state s) ?_
  rw [hFlying]
  exact .bind (.put _ s) (.ret none _)

theorem runs_populateBy_flies (told : Except Error Unit) (hNobody : s.populations.get? ref.number = none)
    {outcome : Except Error (List Record)}
    (hWork : Runs (do let records ← fetch; serve (ref.store.swap records); return records)
      { s with populations := s.populations.set ref.number callback.toList } outcome s')
    (hTell : Runs (((s'.populations.get? ref.number).getD []).forM fun c => notify c (.records outcome))
      { s' with populations := s'.populations.erase ref.number } told s'') :
    Runs (populateBy notify ref callback fetch) s (told >>= fun _ => some <$> outcome) s'' := by
  refine .bind (.state s) ?_
  rw [hNobody]
  refine .bind (.put _ s) (.bind (runs_attempt hWork) (.bind (.state s') (.bind (.put _ s') ?_)))
  cases told with
  | ok _ => exact .bind hTell ((runs_ofExcept outcome s'').map some)
  | error e => exact .bind_fail hTell

end Session

namespace Flight

/-- While a flight is open others may board it. -/
def Grows (f f' : Flight κ) : Prop :=
  ∃ more, f' = { f with joined := f.joined ++ more } ∧ (f.stage.isOpen = false → more = [])

theorem Grows.refl (f : Flight κ) : Grows f f := ⟨[], by rw [List.append_nil], fun _ => rfl⟩

theorem Grows.trans {f g h : Flight κ} (hFirst : Grows f g) (hThen : Grows g h) : Grows f h := by
  obtain ⟨more, rfl, hClosed⟩ := hFirst
  obtain ⟨others, rfl, hStill⟩ := hThen
  refine ⟨more ++ others, by rw [List.append_assoc], fun hNow => ?_⟩
  rw [hClosed hNow, hStill hNow]
  rfl

theorem Grows.eq_of_closed {f f' : Flight κ} (h : Grows f f') (hClosed : f.stage.isOpen = false) : f' = f := by
  obtain ⟨more, rfl, hNone⟩ := h
  rw [hNone hClosed, List.append_nil]

/-- All callbacks were called, and all calls have returned. -/
structure Done (o : Outcome) (f : Flight κ) : Prop where
  stage : f.stage = .landed o
  told : f.told = f.callbacks.length
  answered : ∀ p ∈ f.passengers, p.answer = some o.result

theorem Done.closed {o : Outcome} {f : Flight κ} (h : Done o f) : f.stage.isOpen = false := by
  rw [h.stage]
  rfl

/-- Open flights grow, and flights that were started are done. -/
inductive Extends : List (Flight κ) → List (Flight κ) → Prop
  | new {flights : List (Flight κ)} (hDone : ∀ f ∈ flights, ∃ o, Done o f) : Extends [] flights
  | old {f f' : Flight κ} {rest rest' : List (Flight κ)} (hGrows : Grows f f') (hRest : Extends rest rest') :
      Extends (f :: rest) (f' :: rest')

namespace Extends

variable {flights flights' flights'' before after : List (Flight κ)} {f : Flight κ}

theorem refl (flights : List (Flight κ)) : Extends flights flights := by
  induction flights with
  | nil => exact .new (List.forall_mem_nil _)
  | cons f rest ih => exact .old (.refl f) ih

theorem done (h : Extends flights flights') (hDone : ∀ f ∈ flights, ∃ o, Done o f) :
    ∀ f ∈ flights', ∃ o, Done o f := by
  induction h with
  | new hNew => exact hNew
  | old hGrows _ ih =>
    obtain ⟨⟨o, hFirst⟩, hRest⟩ := List.forall_mem_cons.mp hDone
    rw [hGrows.eq_of_closed hFirst.closed]
    exact List.forall_mem_cons.mpr ⟨⟨o, hFirst⟩, ih hRest⟩

theorem trans (h : Extends flights flights') (h' : Extends flights' flights'') : Extends flights flights'' := by
  induction h generalizing flights'' with
  | new hDone => exact .new (h'.done hDone)
  | old hGrows _ ih =>
    cases h' with
    | old hGrows' hRest' => exact .old (hGrows.trans hGrows') (ih hRest')

/-- A flight among those that are there, in whose place another one may stand. -/
theorem exists_place (h : Extends (before ++ f :: after) flights') :
    ∃ before' f' after', flights' = before' ++ f' :: after' ∧ before'.length = before.length ∧ Grows f f' ∧
      ∀ g g', Grows g g' → Extends (before ++ g :: after) (before' ++ g' :: after') := by
  induction before generalizing flights' with
  | nil =>
    cases h with
    | @old _ f' _ after' hGrows hRest => exact ⟨[], f', after', rfl, rfl, hGrows, fun g g' hNow => .old hNow hRest⟩
  | cons first rest ih =>
    cases h with
    | @old _ first' _ others hGrows hRest =>
      obtain ⟨before', f', after', rfl, hLength, hThere, hPlace⟩ := ih hRest
      exact ⟨first' :: before', f', after', rfl, congrArg Nat.succ hLength, hThere,
        fun g g' hNow => .old hGrows (hPlace g g' hNow)⟩

theorem append (flights : List (Flight κ)) {rest rest' : List (Flight κ)} (h : Extends rest rest') :
    Extends (flights ++ rest) (flights ++ rest') := by
  induction flights with
  | nil => exact h
  | cons f _ ih => exact .old (.refl f) ih

theorem of_done {o : Outcome} (h : Extends (flights ++ [f]) flights') (hDone : Done o f) :
    Extends flights flights' := by
  have hNew : Extends (flights ++ []) (flights ++ [f]) := append flights (.new (by simpa using ⟨o, hDone⟩))
  rw [List.append_nil] at hNew
  exact hNew.trans h

end Extends

end Flight

namespace Flights

open Session (Proceeds populateBy serve)

variable {scene : Scene κ α} {s : Session κ α} {t t' : Flights κ α} {notify : Notify κ α} {callback : Option κ}
  {fetch : Work κ α (List Record)} {before after : List (Flight κ)} {f : Flight κ} {o : Flight.Outcome}

/-- The work comes to the result as a run, which leaves the flights as they are, but for those who board them. -/
def Leads (scene : Scene κ α) (t : Flights κ α) (work : Work κ α β) (result : Except Error β)
    (t' : Flights κ α) : Prop :=
  Runs work t.session result t'.session ∧ Run scene t t' ∧ Flight.Extends t.flights t'.flights

/-- Callbacks do not fail. One logs what it is given; then it may populate the store as well. -/
def Tells (scene : Scene κ α) (s : Session κ α) (notify : Notify κ α) : Prop :=
  ∀ before c outcome, ∃ logged, Proceeds scene [(c, outcome)] before logged ∧
    ∀ t, t.session = logged → Run scene (start s) t →
      ∃ t', Runs (notify c (.records outcome)) before (.ok ()) t'.session ∧ Run scene t t' ∧
        Flight.Extends t.flights t'.flights

/-- A fetch may fail, and others may populate the store meanwhile. -/
def Fetches (scene : Scene κ α) (s : Session κ α) (fetch : Work κ α (List Record)) : Prop :=
  ∀ t, Run scene (start s) t → ∃ result t', Leads scene t fetch result t'

/-- Those who are on board are told one after another, whatever their callbacks do. -/
theorem leads_tell (hSound : Sound scene t) (hTells : Tells scene s notify) (hRun : Run scene (start s) t)
    (hFlights : t.flights = before ++ f :: after) (hStage : f.stage = .landed o) {callbacks : List κ}
    (hCallbacks : f.callbacks.drop f.told = callbacks) :
    ∃ t', Runs (callbacks.forM fun c => notify c (.records o.result)) t.session (.ok ()) t'.session ∧ Run scene t t' ∧
      Flight.Extends (before ++ { f with told := f.callbacks.length } :: after) t'.flights := by
  -- on those left to tell; the callbacks of the others may populate the store before it is their turn
  induction callbacks generalizing t before f after with
  | nil =>
    have hAll : f.told = f.callbacks.length :=
      Nat.le_antisymm (hSound.accounted.fair f (by simp [hFlights])).told_le (List.drop_eq_nil_iff.mp hCallbacks)
    refine ⟨t, .ret _ _, .refl, ?_⟩
    rw [← hAll, ← hFlights]
    exact .refl _
  | cons c rest ih =>
    have hNext : f.callbacks[f.told]? = some c := by
      rw [← List.head?_drop, hCallbacks]
      rfl
    have hRest : f.callbacks.drop (f.told + 1) = rest := by
      rw [← List.tail_drop, hCallbacks]
      rfl
    obtain ⟨logged, hProceeds, hThen⟩ := hTells t.session c o.result
    have hTell : Step scene t _ := .tell hFlights hStage hNext hProceeds
    obtain ⟨t₁, hNotify, hMore, hExtends⟩ := hThen _ rfl (hRun.tail hTell)
    obtain ⟨before₁, f₁, after₁, hFlights₁, -, hGrows, hPlace⟩ := hExtends.exists_place
    obtain rfl := hGrows.eq_of_closed (by simp [hStage, Flight.Stage.isOpen])
    have hRun₁ := (hRun.tail hTell).trans hMore
    obtain ⟨t', hOthers, hLater, hExtends'⟩ := ih ((hSound.step hTell).run hMore) hRun₁ hFlights₁ hStage hRest
    refine ⟨t', ?_, .head hTell (hMore.trans hLater), (hPlace _ _ (.refl _)).trans hExtends'⟩
    rw [List.forM]
    exact hNotify.bind hOthers

theorem run_wake (hFlights : t.flights = before ++ f :: after) (hStage : f.stage = .landed o)
    (done rest : List (Passenger κ)) (hJoined : f.joined = done ++ rest)
    (hDone : ∀ p ∈ done, p.answer = some o.result) :
    ∃ joined, (∀ p ∈ joined, p.answer = some o.result) ∧ joined.map (·.callback) = f.joined.map (·.callback) ∧
      Run scene t { t with flights := before ++ { f with joined } :: after } := by
  -- on those who still wait; those before them have their answer already
  induction rest generalizing t f done with
  | nil =>
    rw [List.append_nil] at hJoined
    refine ⟨done, hDone, by rw [hJoined], ?_⟩
    rw [← hJoined, ← hFlights]
  | cons p rest ih =>
    let awake : Flight κ := { f with joined := done ++ { p with answer := some o.result } :: rest }
    have hStep : Step scene t { t with flights := before ++ awake :: after } := .alone hFlights (.wake hStage hJoined)
    obtain ⟨joined, hAnswered, hSame, hLater⟩ := ih (t := { t with flights := before ++ awake :: after }) (f := awake)
      rfl hStage (done ++ [{ p with answer := some o.result }]) (by simp [awake])
      (by simpa [or_imp, forall_and] using hDone)
    exact ⟨joined, hAnswered, by simpa [awake, hJoined] using hSame, .head hStep hLater⟩

theorem run_return (scene : Scene κ α) (hFlights : t.flights = before ++ f :: after) (hStage : f.stage = .landed o)
    (hTold : f.told = f.callbacks.length) :
    ∃ f' : Flight κ, f'.Done o ∧ f'.runner.callback = f.runner.callback ∧
      Run scene t { t with flights := before ++ f' :: after } := by
  let finished : Flight κ := { f with runner := { f.runner with answer := some o.result } }
  have hFinish : Step scene t { t with flights := before ++ finished :: after } :=
    .alone hFlights (.finish hStage hTold)
  obtain ⟨joined, hAnswered, hSame, hLater⟩ := run_wake (t := { t with flights := before ++ finished :: after })
    (f := finished) rfl hStage [] f.joined rfl (List.forall_mem_nil _)
  refine ⟨{ finished with joined }, ⟨hStage, ?_, ?_⟩, rfl, .head hFinish hLater⟩
  · have hCallbacks : joined.filterMap (·.callback) = f.joined.filterMap (·.callback) := by
      have hBoth := congrArg (List.filterMap id) hSame
      simpa [List.filterMap_map] using hBoth
    rw [hTold, Flight.callbacks, Flight.callbacks, Flight.passengers, Flight.passengers, List.filterMap_cons,
      List.filterMap_cons, hCallbacks]
  · exact List.forall_mem_cons.mpr ⟨rfl, hAnswered⟩

/-- Who comes while a flight is open boards it, and does not fetch. -/
theorem leads_boards (hSound : Sound scene t) {callbacks : List κ} (hFlying : t.population scene = some callbacks)
    (notify : Notify κ α) (callback : Option κ) :
    ∃ before f t', t.flights = before ++ [f] ∧ t'.flights = before ++ [f.board callback] ∧
      ∀ fetch, Leads scene t (populateBy notify scene.ref callback fetch) (.ok none) t' := by
  have hMarked := hSound.marked
  obtain ⟨before, f, hFlights, hOpen⟩ : ∃ before f, t.flights = before ++ [f] ∧ f.stage.isOpen = true := by
    have hKnown := hMarked.known
    rw [hFlying] at hKnown
    obtain ⟨f, hFilter, -⟩ := List.map_eq_singleton_iff.mp hKnown
    obtain ⟨hMem, hOpen⟩ := List.mem_filter.mp (hFilter ▸ List.mem_singleton_self f : f ∈ t.flights.filter _)
    obtain ⟨before, after, hFlights⟩ := List.append_of_mem hMem
    rw [hFlights] at hMarked
    obtain ⟨rfl, -⟩ := hMarked.of_open hOpen
    exact ⟨before, f, hFlights, hOpen⟩
  have hArrive : (t.population scene).arrive callback = (false, some (callbacks ++ callback.toList)) := by
    rw [hFlying]
    rfl
  have hJoin : Step scene t _ := .join callback hArrive hFlights hOpen
  refine ⟨before, f, _, hFlights, rfl, fun fetch => ⟨Session.runs_populateBy_boards hFlying, .single hJoin, ?_⟩⟩
  have hGrows : f.Grows (f.board callback) := by
    refine ⟨[{ callback }], rfl, fun hClosed => ?_⟩
    rw [hOpen] at hClosed
    cases hClosed
  rw [hFlights]
  exact .append before (.old hGrows (.refl []))

theorem exists_settled (scene : Scene κ α) {result : Except Error (List Record)} {u : Session κ α}
    (hFetch : Runs fetch u result t.session) (hFlights : t.flights = before ++ f :: after)
    (hStage : f.stage = .fetching) :
    ∃ o u', o.fetched = result ∧
      Runs (do let records ← fetch; serve (scene.ref.store.swap records); return records) u o.result u' ∧
      Run scene t ⟨u', before ++ { f with stage := .settled o } :: after⟩ := by
  cases result with
  | error e => exact ⟨.unfetched e, t.session, rfl, hFetch.bind_fail, .single (.alone hFlights (.fail e hStage))⟩
  | ok records =>
    obtain ⟨r, disk, hSwap⟩ := Runs.exists_run (scene.ref.store.swap records) t.session.disk
    have hServe : Runs (serve (scene.ref.store.swap records) : Work κ α Unit) t.session r { t.session with disk } :=
      Session.runs_serve hSwap
    let fetched : Flight κ := { f with stage := .fetched records }
    have hFetched : Step scene t { t with flights := before ++ fetched :: after } :=
      .alone hFlights (.fetch records hStage)
    refine ⟨.stored records r, { t.session with disk }, rfl, ?_, .head hFetched (.single ?_)⟩
    case refine_2 => exact .swap (f := fetched) rfl rfl hSwap
    cases r with
    | error e => exact hFetch.bind hServe.bind_fail
    | ok _ => exact hFetch.bind (hServe.bind (.ret records _))

/-- Who comes while no flight is open starts one, and returns when it is done. -/
theorem leads_flies (hSound : Sound scene t) (hTells : Tells scene s notify) (hFetches : Fetches scene s fetch)
    (hRun : Run scene (start s) t) (hNobody : t.population scene = none) (callback : Option κ) :
    ∃ o t' f u, Leads scene t (populateBy notify scene.ref callback fetch) (some <$> o.result) t' ∧
      Runs fetch (t.withCallbacks scene callback.toList) o.fetched u ∧
      t'.flights[t.flights.length]? = some f ∧ f.Done o ∧ f.runner.callback = callback := by
  have hArrive : (t.population scene).arrive callback = (true, some callback.toList) := by
    rw [hNobody]
    rfl
  have hStart : Step scene t _ := .start callback hArrive
  obtain ⟨result, t₁, hFetch, hMore₁, hExtends₁⟩ := hFetches _ (hRun.tail hStart)
  -- others may have boarded the flight while it was fetching, so it is looked up again
  obtain ⟨before, f, after, hFlights₁, hLength, hGrows, hPlace₁⟩ := hExtends₁.exists_place
  have hSound₁ : Sound scene t₁ := (hSound.step hStart).run hMore₁
  have hFetching : f.stage = .fetching := by
    obtain ⟨more, rfl, -⟩ := hGrows
    rfl
  have hCallback : f.runner.callback = callback := by
    obtain ⟨more, rfl, -⟩ := hGrows
    rfl
  obtain ⟨o, u, rfl, hWork, hMore₂⟩ := exists_settled scene hFetch hFlights₁ hFetching
  let settled : Flight κ := { f with stage := .settled o }
  let closed : Flight κ := { f with stage := .closed o }
  let landed : Flight κ := { f with stage := .landed o }
  have hSound₂ : Sound scene ⟨u, before ++ settled :: after⟩ := hSound₁.run hMore₂
  obtain ⟨rfl, hKnown, -⟩ := hSound₂.marked.of_open rfl
  have hTold : f.told = 0 := (hSound₂.accounted.fair settled (by simp)).untold_of_open rfl
  let released : Session κ α := { u with populations := u.populations.erase scene.ref.number }
  have hRelease : Step scene ⟨u, before ++ [settled]⟩ ⟨released, before ++ [closed]⟩ := .release (f := settled) rfl rfl
  have hLand : Step scene ⟨released, before ++ [closed]⟩ ⟨released, before ++ [landed]⟩ :=
    .alone (f := closed) rfl (.land rfl)
  have hMore₃ : Run scene t ⟨released, before ++ [landed]⟩ :=
    .head hStart ((hMore₁.trans hMore₂).trans (.head hRelease (.single hLand)))
  have hWaiting : landed.callbacks.drop landed.told = f.callbacks := by
    rw [show landed.told = 0 from hTold]
    rfl
  -- from here on the flight is closed: later ones come after it, and it stays as it is
  obtain ⟨t₄, hTell, hMore₄, hExtends₄⟩ := leads_tell (hSound.run hMore₃) hTells (hRun.trans hMore₃) rfl rfl hWaiting
  obtain ⟨before', f', after', hFlights₄, hLength', hGrows', hPlace₄⟩ := hExtends₄.exists_place
  obtain rfl := hGrows'.eq_of_closed rfl
  obtain ⟨done, hDone, hSame, hMore₅⟩ := run_return scene hFlights₄ rfl rfl
  refine ⟨o, _, done, _, ⟨?_, hMore₃.trans (hMore₄.trans hMore₅), ?_⟩, hFetch, ?_, hDone, hSame.trans hCallback⟩
  · refine Session.runs_populateBy_flies (.ok ()) hNobody hWork ?_
    rw [show u.populations.get? scene.ref.number = some f.callbacks from hKnown]
    exact hTell
  · exact ((hPlace₁ done done (.refl done)).trans (hPlace₄ done done (.refl done))).of_done hDone
  · rw [← hLength, ← hLength', List.getElem?_append_right (Nat.le_refl _), Nat.sub_self]
    rfl

/-- Under any schedule each callback is called once, with what its own population came to, and so does each call return;
at most one population is under way, and who comes after it starts the next one. Only the swap of what was fetched
touches the disk: populations whose fetches fail leave it to the others. The calls keep to the schedules and come to
their end, those that board a flight without a fetch of their own. -/
theorem singleFlight_of_run (hNone : s.populations.get? scene.ref.number = none) (hLog : scene.log s.app = []) :
    (∀ t, Run scene (start s) t → t.Accounted scene ∧ t.SingleFlight scene ∧
      ∀ t', Run scene t t' → SwapsOnly scene t t' ∧
        (t'.flights.filterMap Flight.swapped? = t.flights.filterMap Flight.swapped? →
          Relation.ReflTransGen scene.others t.session.disk t'.session.disk)) ∧
      ∀ notify, Tells scene s notify → ∀ t, Run scene (start s) t → ∀ callback,
        ((∃ f ∈ t.flights, f.stage.isOpen = true) → ∃ before f t', t.flights = before ++ [f] ∧
          t'.flights = before ++ [f.board callback] ∧
          ∀ fetch, Leads scene t (populateBy notify scene.ref callback fetch) (.ok none) t') ∧
        ((∀ f ∈ t.flights, f.stage.isOpen = false) → ∀ fetch, Fetches scene s fetch → ∃ o t' f u,
          Leads scene t (populateBy notify scene.ref callback fetch) (some <$> o.result) t' ∧
          Runs fetch (t.withCallbacks scene callback.toList) o.fetched u ∧
          t'.flights[t.flights.length]? = some f ∧ f.Done o ∧ f.runner.callback = callback) := by
  have hSound {t : Flights κ α} (hRun : Run scene (start s) t) : Sound scene t := (Sound.start hNone hLog).run hRun
  refine ⟨fun t hRun => ?_, fun notify hTells t hRun callback => ⟨?_, ?_⟩⟩
  · refine ⟨(hSound hRun).accounted, (hSound hRun).singleFlight, fun t' hMore => ?_⟩
    have hSwaps := (hSound hRun).swapsOnly hMore
    exact ⟨hSwaps, hSwaps.untouched⟩
  · rintro ⟨f, hMem, hOpen⟩
    cases hKnown : t.population scene with
    | none =>
      have hMarked := (hSound hRun).marked
      rw [hKnown] at hMarked
      rw [hMarked.closed f hMem] at hOpen
      cases hOpen
    | some callbacks => exact leads_boards (hSound hRun) hKnown notify callback
  · intro hClosed fetch hFetches
    have hFirst := ((hSound hRun).singleFlight.starts callback).mpr hClosed
    exact leads_flies (hSound hRun) hTells hFetches hRun (Option.isNone_iff_eq_none.mp hFirst) callback

/-! ### A fetch that is joined from within, and callbacks that populate again -/

def keepLog : Notify κ (List (κ × Except Error (List Record))) := fun c delivery =>
  match delivery with
  | .records outcome => modify fun s => { s with app := s.app ++ [(c, outcome)] }
  | _ => return ()

/-- Nobody but the populations touches the disk. -/
def quiet : Scene String (List (String × Except Error (List Record))) where
  ref := ⟨0, ⟨"Note", .int 60⟩⟩
  log := id
  others _ _ := False

/-- Populates the store while the server cannot be reached, whatever comes of it. -/
def tryAgain (c : String) : Work String (List (String × Except Error (List Record))) Unit :=
  discard (Session.attempt (populateBy keepLog quiet.ref (some c) (throw Session.unreachable)))

def askAgain : Notify String (List (String × Except Error (List Record))) := fun c delivery => do
  keepLog c delivery
  tryAgain "again"

def fetchWithin : Work String (List (String × Except Error (List Record))) (List Record) := do
  tryAgain "within"
  return [.ofFields [("objectId", .string "a")]]

def desk : Session String (List (String × Except Error (List Record))) := { app := [] }

theorem proceeds_logged (u : Session String (List (String × Except Error (List Record)))) (c : String)
    (outcome : Except Error (List Record)) :
    Proceeds quiet [(c, outcome)] u { u with app := u.app ++ [(c, outcome)] } := ⟨rfl, .refl, rfl⟩

theorem tells_keepLog : Tells quiet desk keepLog := by
  refine fun before c outcome => ⟨_, proceeds_logged before c outcome, fun t hSession _ => ⟨t, ?_, .refl, .refl _⟩⟩
  rw [hSession]
  exact .alter _ before

theorem fetches_unreachable : Fetches quiet desk (throw Session.unreachable) :=
  fun t _ => ⟨_, t, .fail _ _, .refl, .refl _⟩

theorem leads_tryAgain {t : Flights String (List (String × Except Error (List Record)))}
    (hRun : Run quiet (start desk) t) (c : String) : ∃ t', Leads quiet t (tryAgain c) (.ok ()) t' := by
  have hSound : Sound quiet t := (Sound.start rfl rfl).run hRun
  obtain ⟨result, t', hCall, hMore, hExtends⟩ : ∃ result t',
      Leads quiet t (populateBy keepLog quiet.ref (some c) (throw Session.unreachable)) result t' := by
    cases hKnown : t.population quiet with
    | none =>
      obtain ⟨o, t', f, u, hLeads, -⟩ :=
        leads_flies hSound tells_keepLog fetches_unreachable hRun hKnown (some c)
      exact ⟨_, t', hLeads⟩
    | some callbacks =>
      obtain ⟨before, f, t', -, -, hLeads⟩ := leads_boards hSound hKnown keepLog (some c)
      exact ⟨_, t', hLeads _⟩
  exact ⟨t', (Session.runs_attempt hCall).map _, hMore, hExtends⟩

theorem tells_askAgain : Tells quiet desk askAgain := by
  refine fun before c outcome => ⟨_, proceeds_logged before c outcome, fun t hSession hRun => ?_⟩
  obtain ⟨t', hAgain, hMore, hExtends⟩ := leads_tryAgain hRun "again"
  refine ⟨t', .bind (.alter _ before) ?_, hMore, hExtends⟩
  rw [← hSession]
  exact hAgain

theorem fetches_within : Fetches quiet desk fetchWithin := by
  intro t hRun
  obtain ⟨t', hAgain, hMore, hExtends⟩ := leads_tryAgain hRun "within"
  exact ⟨_, t', hAgain.bind (.ret _ _), hMore, hExtends⟩

/-- The population is joined from within its own fetch. Both callbacks populate again, in vain. -/
theorem singleFlight_of_run_askAgain :
    desk.populations.get? quiet.ref.number = none ∧ quiet.log desk.app = [] ∧ Tells quiet desk askAgain ∧
      Fetches quiet desk fetchWithin ∧ ∃ t, Run quiet (start desk) t ∧ t.Accounted quiet ∧ t.SingleFlight quiet ∧
        SwapsOnly quiet (start desk) t ∧
        t.session.app.map (fun told => (told.1, told.2.toOption.map (·.map Record.objectId?))) =
          [("first", some [some "a"]), ("again", none), ("within", some [some "a"]), ("again", none)] ∧
        (quiet.ref.store.loadAll.run.run t.session.disk).1.toOption.map (·.map Record.objectId?) =
          some [some "a"] := by
  have hNone : desk.populations.get? quiet.ref.number = none := rfl
  have hLog : quiet.log desk.app = [] := rfl
  obtain ⟨hAccounts, hCalls⟩ := singleFlight_of_run hNone hLog
  obtain ⟨-, hFlies⟩ := hCalls askAgain tells_askAgain _ .refl (some "first")
  obtain ⟨o, t, f, u, ⟨hCall, hRun, -⟩, -⟩ := hFlies (List.forall_mem_nil _) fetchWithin fetches_within
  obtain ⟨hAccounted, hSingle, -⟩ := hAccounts t hRun
  obtain ⟨hSwaps, -⟩ := (hAccounts _ .refl).2.2 t hRun
  have hEnd := hCall.final_eq
  refine ⟨hNone, hLog, tells_askAgain, fetches_within, t, hRun, hAccounted, hSingle, hSwaps, ?_, ?_⟩
  · rw [hEnd]
    decide +kernel
  · rw [hEnd]
    decide +kernel

end Flights

end RecordCache
