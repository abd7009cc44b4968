import RecordCache.Proofs.Client.Accounts
import RecordCache.Proofs.Client.Runs

/-!
# The calls of a queue

Getting a record, flushing a queue and firing its timer are runs of `Traffic.Step`, with all that callbacks
do in between. So every get is answered once, whatever the schedule.
-/

namespace RecordCache

namespace Session

variable {κ α : Type} {n : Nat} {s s' : Session κ α} {q : FetchQueue κ} {notify : Notify κ α}
  {id : Json} {caller : κ}
  {disk : Disk}

theorem runs_fetchOne_found (hQueue : s.queues[n]? = some q) {r : Record} {result : Except Error Unit}
    (hLooks : Runs (q.lookUp id) s.disk (.ok (some r)) disk)
    (hTold : Runs (notify caller (.record (.ok r))) { s with disk } result s') :
    Runs (fetchOne notify n id caller) s result s' := by
  refine .bind (.state s) ?_
  simp only [hQueue]
  exact .bind (runs_serve hLooks) hTold

theorem runs_fetchOne_missed (hQueue : s.queues[n]? = some q)
    (hLooks : Runs (q.lookUp id) s.disk (.ok none) disk) :
    Runs (fetchOne notify n id caller) s (.ok ()) (enqueue n id caller { s with disk }) := by
  refine .bind (.state s) ?_
  simp only [hQueue]
  exact .bind (runs_serve hLooks) (.alter _ _)

theorem runs_flush_nothing {fetch : Fetch κ α} (hQueue : s.queues[n]? = some q) (hPending : q.pending = []) :
    Runs (flush notify fetch n) s (.ok ()) (drain n s) := by
  refine .bind (.state s) ?_
  simp only [hQueue, hPending]
  exact .bind (.alter _ _) (.ret _ _)

theorem runs_fireTimer {fetch : Fetch κ α} {m : Nat} {timer : Timer} (hTimer : s.timers[m]? = some timer)
    {result : Except Error Unit}
    (hFlush : Runs (flush notify fetch timer.queue) { s with timers := s.timers.fire m } result s') :
    Runs (fireTimer notify fetch m) s result s' := by
  refine .bind (.state s) (.bind (.alter _ s) ?_)
  simp only [hTimer]
  exact hFlush

theorem runs_flush {fetch : Fetch κ α} (hQueue : s.queues[n]? = some q) (hPending : q.pending ≠ [])
    (hIds : ∀ request ∈ q.pending, request.1.isScalar = true) {fetched : Except Error (List Record)}
    (hFetch : Runs (fetch q (FetchQueue.distinctIds q.pending)) (drain n s) fetched s')
    (hKeep : Traffic.Keeps q fetched s'.disk disk) {told : Except Error Unit} {s'' : Session κ α}
    (hTell : Runs (q.pending.forM fun request => notify request.2 (.record (q.outcome fetched request.1)))
      { s' with disk } told s'') :
    Runs (flush notify fetch n) s told s'' := by
  have hNotEmpty : q.pending.isEmpty = false := by simpa using hPending
  refine .bind (.state s) ?_
  simp only [hQueue, hNotEmpty]
  refine .bind (.alter (drain n) s) ?_
  rw [FetchQueue.batchIds_eq hIds]
  refine .bind (runs_ofExcept (.ok (FetchQueue.distinctIds q.pending)) _) (.bind (runs_attempt hFetch) ?_)
  cases fetched with
  | error e =>
    obtain rfl : disk = s'.disk := hKeep
    exact .bind (.ret _ _) hTell
  | ok records => exact .bind (runs_serve hKeep) hTell

end Session

namespace Traffic

open Session (Passes Fetch fetchOne flush fireTimer)

variable {κ α β : Type} {n : Nat} {log : α → List (κ × Except Error Record)} {s : Session κ α}
  {t t' u : Traffic κ α} {q q' : FetchQueue κ} {notify : Notify κ α} {fetch : Fetch κ α}

/-- There are more calls than before, and the new ones are over. -/
structure Extends (t t' : Traffic κ α) : Prop where
  flushes : t'.flushes = t.flushes
  inquiries : ∃ more, t'.inquiries = t.inquiries ++ more ∧ ∀ i ∈ more, i.closed = true
  departures : ∃ more, t'.departures = t.departures ++ more ∧ ∀ b ∈ more, b.Done

theorem Extends.refl (t : Traffic κ α) (s : Session κ α) : t.Extends { t with session := s } :=
  ⟨rfl, ⟨[], by simp, by simp⟩, ⟨[], by simp, by simp⟩⟩

theorem Extends.trans (h : t.Extends u) (h' : u.Extends t') : t.Extends t' := by
  obtain ⟨hFlushes, ⟨is, hInquiries, hClosed⟩, ⟨bs, hDepartures, hDone⟩⟩ := h
  obtain ⟨hFlushes', ⟨is', hInquiries', hClosed'⟩, ⟨bs', hDepartures', hDone'⟩⟩ := h'
  refine ⟨hFlushes'.trans hFlushes, ⟨is ++ is', ?_, ?_⟩, ⟨bs ++ bs', ?_, ?_⟩⟩
  · rw [hInquiries', hInquiries, List.append_assoc]
  · exact List.forall_mem_append.mpr ⟨hClosed, hClosed'⟩
  · rw [hDepartures', hDepartures, List.append_assoc]
  · exact List.forall_mem_append.mpr ⟨hDone, hDone'⟩

theorem Extends.behind (h : t.Extends t') (s s' : Session κ α) (sent : List (Departure κ))
    {more : List (Departure κ)} (hDone : ∀ b ∈ more, b.Done) :
    Extends { t with session := s, departures := sent }
      { t' with session := s', departures := sent ++ more } :=
  ⟨h.flushes, h.inquiries, ⟨more, rfl, hDone⟩⟩

theorem extends_inquiry (t : Traffic κ α) (s : Session κ α) {i : Inquiry κ} (hClosed : i.closed = true) :
    t.Extends { t with session := s, inquiries := t.inquiries ++ [i] } :=
  ⟨rfl, ⟨[i], rfl, by simpa using hClosed⟩, ⟨[], by simp, by simp⟩⟩

theorem keeps_congr (hStore : q'.store = q.store) {result : Except Error (List Record)} {d d' : Disk} :
    Keeps q' result d d' ↔ Keeps q result d d' := by
  cases result with
  | error e => exact .rfl
  | ok records => rw [Keeps, Keeps, FetchQueue.keep_congr hStore]

/-- The work comes to the result as a run, which leaves the calls of `u` and others that are over. -/
def Leads (n : Nat) (log : α → List (κ × Except Error Record)) (t : Traffic κ α) (work : Work κ α β)
    (result : Except Error β) (u : Traffic κ α) : Prop :=
  ∃ t', Runs work t.session result t'.session ∧ Run n log t t' ∧ u.Extends t'

/-- Callbacks do not fail. One logs what it is given; then it may call on the queue. -/
def Tells (n : Nat) (log : α → List (κ × Except Error Record)) (s : Session κ α)
    (notify : Notify κ α) : Prop :=
  ∀ before caller outcome, ∃ logged, Passes n log [(caller, outcome)] before logged ∧
    ∀ t, t.session = logged → Run n log (start s) t →
      ∃ t', Runs (notify caller (.record outcome)) before (.ok ()) t'.session ∧ Run n log t t' ∧ t.Extends t'

/-- A fetch may fail, and other calls may be made meanwhile. The records that it gets can be written. -/
def Fetches (n : Nat) (log : α → List (κ × Except Error Record)) (s : Session κ α)
    (fetch : Fetch κ α) : Prop :=
  ∀ t, Run n log (start s) t → ∀ q ids, ∃ result, Leads n log t (fetch q ids) result t ∧
    ∀ records, result = .ok records → ∀ r ∈ records, r.json.isWritable = true

theorem Leads.shrink {work : Work κ α β} {result : Except Error β} (h : Leads n log t work result u)
    (hExtends : t'.Extends u) : Leads n log t work result t' := by
  obtain ⟨v, hRuns, hRun, hMore⟩ := h
  exact ⟨v, hRuns, hRun, hExtends.trans hMore⟩

/-- A get does nothing but to tell the caller of the record that was found, or to put the request into the
queue. -/
def Gets (n : Nat) (notify : Notify κ α) (id : Json) (caller : κ) (s : Session κ α) (disk : Disk) :
    Option Record → Prop
  | some r => ∀ told u, Runs (notify caller (.record (.ok r))) { s with disk } told u →
      Runs (fetchOne notify n id caller) s told u
  | none => Runs (fetchOne notify n id caller) s (.ok ()) (Session.enqueue n id caller { s with disk })

/-- A flush takes just what is pending when it drains the queue, and asks for it once; then it does nothing but
to keep what was fetched and to tell the callers, so that the batch is delivered when it returns. -/
structure Sends (n : Nat) (log : α → List (κ × Except Error Record)) (t : Traffic κ α) (q : FetchQueue κ)
    (notify : Notify κ α) (fetch : Fetch κ α) (s : Session κ α) (work : Work κ α Unit) : Prop where
  nothing : q.pending = [] →
    Runs work t.session (.ok ()) (s.drain n) ∧ Run n log t { t with session := s.drain n }
  batch : q.pending ≠ [] →
    ∃ result s' disk, Runs (fetch q (FetchQueue.distinctIds q.pending)) (s.drain n) result s' ∧
      Keeps q result s'.disk disk ∧
      (∀ told u, Runs (q.pending.forM fun request => notify request.2 (.record (q.outcome result request.1)))
        { s' with disk } told u → Runs work t.session told u) ∧
      Leads n log t work (.ok ())
        { t with departures := t.departures ++ [Departure.delivered q result] }

/-- What the calls on the queue do next. -/
structure Serves (n : Nat) (log : α → List (κ × Except Error Record)) (t : Traffic κ α) (q : FetchQueue κ)
    (notify : Notify κ α) (fetch : Fetch κ α) : Prop where
  get : ∀ id caller, id.isScalar = true →
    ∃ found disk, q.Finds id t.session.disk found disk ∧ Gets n notify id caller t.session disk found ∧
      Leads n log t (fetchOne notify n id caller) (.ok ())
        { t with inquiries := t.inquiries ++ [{ id, caller, found, closed := true }] }
  flush : t.Sends n log q notify fetch t.session (flush notify fetch n)
  /-- A timer of the queue may have been cancelled when it fires, or have fired before. -/
  fire : ∀ m timer, t.session.timers[m]? = some timer → timer.queue = n →
    t.Sends n log q notify fetch { t.session with timers := t.session.timers.fire m } (fireTimer notify fetch m)

section Calls

variable (hFresh : Fresh n log s q) (hTells : Tells n log s notify) (hRun : Run n log (start s) t)

include hFresh hTells hRun

/-- A get is over when it returns: its caller was told, or its request is in the queue. -/
theorem leads_fetchOne (hQueue : t.session.queues[n]? = some q') {id : Json} (hId : id.isScalar = true)
    (caller : κ) :
    ∃ found disk, q'.Finds id t.session.disk found disk ∧ Gets n notify id caller t.session disk found ∧
      Leads n log t (fetchOne notify n id caller) (.ok ())
        { t with inquiries := t.inquiries ++ [{ id, caller, found, closed := true }] } := by
  obtain ⟨_, -, -, hBalanced⟩ := hFresh.balanced.run hRun
  cases hBalanced.armed.queue.symm.trans hQueue
  obtain ⟨found, disk, hLooks⟩ := FetchQueue.exists_lookUp hBalanced.timed id t.session.disk
  refine ⟨found, disk, FetchQueue.finds_of_lookUp hLooks, ?_⟩
  let looked : Traffic κ α :=
    { t with session := { t.session with disk }, inquiries := t.inquiries ++ [{ id, caller, found }] }
  have hLookUp : Step n log t looked := .lookUp hQueue hId hLooks
  cases found with
  | some r =>
    -- the callback is called when the get is settled already, and may call whatever it likes
    obtain ⟨logged, hPasses, hThen⟩ := hTells looked.session caller (.ok r)
    have hGive : Step n log looked _ := .giveAtOnce rfl rfl rfl hPasses
    obtain ⟨t', hNotify, hMore, hExtends⟩ := hThen _ rfl ((hRun.tail hLookUp).tail hGive)
    have hGet : Gets n notify id caller t.session disk (some r) :=
      fun _ _ => Session.runs_fetchOne_found hQueue hLooks
    exact ⟨hGet, t', hGet _ _ hNotify, .head hLookUp (.head hGive hMore),
      (Extends.refl { t with inquiries := _ } _).trans hExtends⟩
  | none =>
    have hEnqueue : Step n log looked _ := .enqueue rfl rfl rfl
    exact ⟨Session.runs_fetchOne_missed hQueue hLooks, _, Session.runs_fetchOne_missed hQueue hLooks,
      .head hLookUp (.single hEnqueue), .refl _ _⟩

/-- The callers of a batch are told one after another, whatever their callbacks do. -/
theorem leads_deliver (hClass : q'.className = q.className) {earlier later : List (Departure κ)}
    {b : Departure κ} {result : Except Error (List Record)}
    (hDepartures : t.departures = earlier ++ b :: later) (hFetched : b.fetched = some result) :
    Leads n log t
      (b.rest.forM fun request => notify request.2 (.record (q'.outcome result request.1))) (.ok ())
      { t with departures := earlier ++ { b with told := b.told ++ b.rest, rest := [] } :: later } := by
  obtain ⟨asked, fetched, told, rest⟩ := b
  dsimp only at hFetched hDepartures ⊢
  subst hFetched
  -- on those left to tell; what a callback calls may send batches of its own, after this one
  induction rest generalizing t told later with
  | nil =>
    refine ⟨t, .ret _ _, .refl, ⟨rfl, ⟨[], by simp, by simp⟩, ⟨[], ?_, by simp⟩⟩⟩
    rw [hDepartures, List.append_nil, List.append_nil]
  | cons request rest ih =>
    obtain ⟨now, hNow, -, hBalanced⟩ := hFresh.balanced.run hRun
    obtain ⟨logged, hPasses, hThen⟩ := hTells t.session request.2 (q'.outcome result request.1)
    rw [FetchQueue.outcome_congr (hClass.trans hNow.symm)] at hPasses
    have hDeliver : Step n log t _ := .deliver hDepartures rfl rfl hBalanced.armed.queue hPasses
    obtain ⟨t₁, hNotify, hMore, hExtends⟩ := hThen _ rfl (hRun.tail hDeliver)
    obtain ⟨bs, hLater, hDone⟩ := hExtends.departures
    rw [List.append_assoc, List.cons_append] at hLater
    obtain ⟨t', hOthers, hRest, hExtends'⟩ := ih ((hRun.tail hDeliver).trans hMore) _ hLater
    refine ⟨t', ?_, .head hDeliver (hMore.trans hRest), ?_⟩
    · rw [List.forM]
      exact hNotify.bind hOthers
    · rw [List.append_assoc, List.singleton_append] at hExtends'
      refine .trans ?_ hExtends'
      rw [← List.cons_append, ← List.append_assoc]
      exact hExtends.behind _ _ _ hDone

variable (hFetches : Fetches n log s fetch)

include hFetches

/-- A flush that is on its way takes what is pending by then, and settles it. -/
theorem leads_flushing {flushes : Nat} (hFlushes : t.flushes = flushes + 1)
    (hQueue : t.session.queues[n]? = some q') (hPending : q'.pending ≠ []) :
    ∃ result s' disk, Runs (fetch q' (FetchQueue.distinctIds q'.pending)) (t.session.drain n) result s' ∧
      Keeps q' result s'.disk disk ∧
      (∀ told u, Runs (q'.pending.forM fun request => notify request.2 (.record (q'.outcome result request.1)))
        { s' with disk } told u → Runs (flush notify fetch n) t.session told u) ∧
      Leads n log t (flush notify fetch n) (.ok ())
        { t with
          flushes
          departures := t.departures ++ [Departure.delivered q' result] } := by
  obtain ⟨_, hClass, -, hBalanced⟩ := hFresh.balanced.run hRun
  cases hBalanced.armed.queue.symm.trans hQueue
  have hIds := FetchQueue.batchIds_eq hBalanced.pending
  have hDrain : Step n log t _ := .drain hFlushes hQueue hPending hIds
  obtain ⟨result, ⟨t₂, hFetch, hMore, hExtends⟩, hWritable⟩ :=
    hFetches _ (hRun.tail hDrain) q' (FetchQueue.distinctIds q'.pending)
  -- other calls may have run during the fetch, but the batch is where it was and as it was
  obtain ⟨bs, hDepartures, hDone⟩ := hExtends.departures
  rw [List.append_assoc, List.singleton_append] at hDepartures
  obtain ⟨q₂, -, hStore, hBalanced₂⟩ := hBalanced.run (.head hDrain hMore)
  have hReached : Run n log (start s) t₂ := (hRun.tail hDrain).trans hMore
  obtain ⟨disk, hKeep⟩ : ∃ disk, Keeps q' result t₂.session.disk disk := by
    cases result with
    | ok records => exact q'.exists_keep (hWritable records rfl) _
    | error e => exact ⟨_, rfl⟩
  have hFetched : Step n log t₂ _ :=
    .fetch hDepartures rfl hBalanced₂.armed.queue ((keeps_congr hStore).mpr hKeep)
  obtain ⟨t', hDeliver, hRest, hExtends'⟩ :=
    leads_deliver hFresh hTells (hReached.tail hFetched) hClass rfl rfl
  have hFlush : ∀ told u, Runs
      (q'.pending.forM fun request => notify request.2 (.record (q'.outcome result request.1)))
      { t₂.session with disk } told u → Runs (flush notify fetch n) t.session told u :=
    fun _ _ => Session.runs_flush hQueue hPending hBalanced.pending hFetch hKeep
  refine ⟨result, t₂.session, disk, hFetch, hKeep, hFlush, t', hFlush _ _ hDeliver, ?_, ?_⟩
  · exact .head hDrain (hMore.trans (.head hFetched hRest))
  · refine .trans (hExtends.behind _ { t₂.session with disk } _ hDone) ?_
    rw [List.append_assoc, List.singleton_append]
    exact hExtends'

theorem sends_flush (hQueue : t.session.queues[n]? = some q') :
    t.Sends n log q' notify fetch t.session (flush notify fetch n) := by
  have hCall : Step n log t _ := .flush
  refine ⟨fun hPending => ⟨Session.runs_flush_nothing hQueue hPending, ?_⟩, fun hPending => ?_⟩
  · exact .head hCall (.single (.drainNothing rfl hQueue hPending))
  · obtain ⟨result, s', disk, hFetch, hKeep, hTell, t', hFlush, hMore, hExtends⟩ :=
      leads_flushing hFresh hTells (hRun.tail hCall) hFetches rfl hQueue hPending
    exact ⟨result, s', disk, hFetch, hKeep, hTell, t', hFlush, .head hCall hMore, hExtends⟩

theorem sends_fireTimer (hQueue : t.session.queues[n]? = some q') {m : Nat} {timer : Timer}
    (hTimer : t.session.timers[m]? = some timer) (hOfQueue : timer.queue = n) :
    t.Sends n log q' notify fetch { t.session with timers := t.session.timers.fire m }
      (fireTimer notify fetch m) := by
  subst hOfQueue
  have hFire : Step timer.queue log t _ := .fire hTimer rfl
  refine ⟨fun hPending => ⟨?_, ?_⟩, fun hPending => ?_⟩
  · exact Session.runs_fireTimer hTimer (Session.runs_flush_nothing hQueue hPending)
  · exact .head hFire (.single (.drainNothing rfl hQueue hPending))
  · obtain ⟨result, s', disk, hFetch, hKeep, hTell, t', hFlush, hMore, hExtends⟩ :=
      leads_flushing hFresh hTells (hRun.tail hFire) hFetches rfl hQueue hPending
    exact ⟨result, s', disk, hFetch, hKeep,
      fun told u hTold => Session.runs_fireTimer hTimer (hTell told u hTold), t',
      Session.runs_fireTimer hTimer hFlush, .head hFire hMore,
      (Extends.refl { t with departures := _ } _).trans hExtends⟩

end Calls

/-- Under any schedule every get is accounted for, and once all calls are over and nothing is pending, each
has called its caller. The calls on the queue keep to the schedules: they come to their end, whatever their
callbacks and fetches call in turn. -/
theorem accounted_of_run (hFresh : Fresh n log s q) (t : Traffic κ α) (hRun : Run n log (start s) t) :
    ∃ q', q'.className = q.className ∧ q'.store = q.store ∧ t.Accounted n log q' ∧
      (t.Idle → q'.pending = [] → (t.inquiries.map (·.caller)).Perm ((log t.session.app).map Prod.fst)) ∧
      ∀ notify fetch, Tells n log s notify → Fetches n log s fetch → t.Serves n log q' notify fetch := by
  obtain ⟨q', hClass, hStore, hBalanced⟩ := hFresh.balanced.run hRun
  have hQueue := hBalanced.armed.queue
  refine ⟨q', hClass, hStore, hBalanced.accounted, hBalanced.accounted.all_told, ?_⟩
  intro notify fetch hTells hFetches
  exact {
    get := fun id caller hId => leads_fetchOne hFresh hTells hRun hQueue hId caller
    flush := sends_flush hFresh hTells hRun hFetches hQueue
    fire := fun m timer hTimer => sends_fireTimer hFresh hTells hRun hFetches hQueue hTimer }

/-! ### A callback that asks again -/

/-- Logs what it is given. -/
def keepLog : Notify κ (List (κ × Except Error Record)) := fun caller delivery =>
  match delivery with
  | .record outcome => modify fun s => { s with app := s.app ++ [(caller, outcome)] }
  | _ => return ()

/-- Logs what it is given, and gets a record in turn. -/
def askAgain (n : Nat) (key : Json) (other : κ) : Notify κ (List (κ × Except Error Record)) :=
  fun caller delivery => do
    keepLog caller delivery
    fetchOne keepLog n key other

theorem passes_logged (s : Session κ (List (κ × Except Error Record))) (caller : κ)
    (outcome : Except Error Record) :
    Passes n id [(caller, outcome)] s { s with app := s.app ++ [(caller, outcome)] } :=
  ⟨rfl, fun _ _ _ => .rfl, rfl⟩

theorem tells_keepLog (s : Session κ (List (κ × Except Error Record))) : Tells n id s keepLog := by
  refine fun before caller outcome =>
    ⟨_, passes_logged before caller outcome, fun t hSession _ => ⟨t, ?_, .refl, .refl t _⟩⟩
  rw [hSession]
  exact .alter _ before

theorem tells_askAgain {s : Session κ (List (κ × Except Error Record))} (hFresh : Fresh n id s q)
    {key : Json}
    (hKey : key.isScalar = true) (other : κ) : Tells n id s (askAgain n key other) := by
  refine fun before caller outcome => ⟨_, passes_logged before caller outcome, fun t hSession hRun => ?_⟩
  obtain ⟨_, -, -, hBalanced⟩ := hFresh.balanced.run hRun
  obtain ⟨_, _, -, -, hLeads⟩ :=
    leads_fetchOne hFresh (tells_keepLog s) hRun hBalanced.armed.queue hKey other
  obtain ⟨t', hGet, hMore, hExtends⟩ := hLeads.shrink (extends_inquiry t _ rfl)
  refine ⟨t', .bind (.alter _ before) ?_, hMore, hExtends⟩
  rw [← hSession]
  exact hGet

def noteQueue : FetchQueue String := { className := "Note", store := some ⟨"Note", .int 60⟩ }

def desk : Session String (List (String × Except Error Record)) := { queues := [noteQueue], app := [] }

def note (key : String) : Record := .ofFields [("objectId", .string key)]

def bringNote : Fetch String (List (String × Except Error Record)) := fun _ _ => return [note "a"]

theorem fresh_desk : Fresh 0 id desk noteQueue :=
  ⟨rfl, by rintro _ ⟨⟩; rfl, rfl, rfl, by simp [desk], rfl⟩

theorem fetches_bringNote : Fetches 0 id desk bringNote := by
  refine fun t _ q ids => ⟨_, ⟨t, .ret _ _, .refl, .refl t _⟩, fun records hRecords r hr => ?_⟩
  cases hRecords
  rw [List.mem_singleton.mp hr]
  rfl

/-- Two callers are told, and both ask again: their new requests are pending. -/
theorem accounted_of_run_askAgain :
    Fresh 0 id desk noteQueue ∧ Tells 0 id desk (askAgain 0 (.string "b") "again") ∧
      Fetches 0 id desk bringNote ∧
      ∃ t q', Run 0 id (start desk) t ∧ t.Accounted 0 id q' ∧ q'.pending.map Prod.snd = ["again", "again"] ∧
        t.session.app.map (fun told => (told.1, told.2.toOption.bind Record.objectId?)) =
          [("first", some "a"), ("second", none)] := by
  have hTells : Tells 0 id desk (askAgain 0 (.string "b") "again") := tells_askAgain fresh_desk rfl _
  obtain ⟨_, -, -, -, -, hServes⟩ := accounted_of_run fresh_desk (start desk) .refl
  obtain ⟨_, _, -, -, t₁, hFirst, hRun₁, -⟩ :=
    (hServes _ _ hTells fetches_bringNote).get (.string "a") "first" rfl
  obtain ⟨_, -, -, -, -, hServes⟩ := accounted_of_run fresh_desk t₁ hRun₁
  obtain ⟨_, _, -, -, t₂, hSecond, hMore, -⟩ :=
    (hServes _ _ hTells fetches_bringNote).get (.string "c") "second" rfl
  have hRun₂ := hRun₁.trans hMore
  obtain ⟨q₂, -, -, hAccounted, -, hServes⟩ := accounted_of_run fresh_desk t₂ hRun₂
  have hEnd₂ := hSecond.final_eq
  rw [hFirst.final_eq] at hEnd₂
  have hPending : q₂.pending ≠ [] := by
    have hCallers : (t₂.session.queues[0]?).map (·.pending.map Prod.snd) = some ["first", "second"] := by
      rw [hEnd₂]
      decide +kernel
    rw [hAccounted.queue] at hCallers
    rintro hNone
    simp [hNone] at hCallers
  obtain ⟨_, _, _, -, -, -, t, hFlush, hMore, -⟩ :=
    (hServes _ _ hTells fetches_bringNote).flush.batch hPending
  have hRun := hRun₂.trans hMore
  obtain ⟨q', -, -, hAccounted, -⟩ := accounted_of_run fresh_desk t hRun
  have hEnd := hFlush.final_eq
  rw [hEnd₂] at hEnd
  refine ⟨fresh_desk, hTells, fetches_bringNote, t, q', hRun, hAccounted, ?_, ?_⟩
  · have hCallers : (t.session.queues[0]?).map (·.pending.map Prod.snd) = some ["again", "again"] := by
      rw [hEnd]
      decide +kernel
    rw [hAccounted.queue] at hCallers
    exact Option.some.inj hCallers
  · rw [hEnd]
    decide +kernel

end Traffic

end RecordCache
