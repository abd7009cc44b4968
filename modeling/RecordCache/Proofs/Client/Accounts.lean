import RecordCache.Proofs.Client.Traffic

/-!
# No request is lost

`Balanced` is the invariant behind `Traffic.Accounted`: what was looked up is either settled at once or
queued, what was queued is pending or in one batch, and what was told is the records and the outcomes that
belong to it. Each step moves one request from one of these to the next.
-/

namespace RecordCache.Traffic

variable {κ α β : Type} {n : Nat} {log : α → List (κ × Except Error Record)} {s : Session κ α}
  {t t' : Traffic κ α} {q : FetchQueue κ}

structure Balanced (n : Nat) (log : α → List (κ × Except Error Record)) (t : Traffic κ α)
    (q : FetchQueue κ) : Prop where
  armed : Session.Armed n t.session q t.flushes
  timed : q.Timed
  inquired : ∀ i ∈ t.inquiries, i.id.isScalar = true
  pending : ∀ request ∈ q.pending, request.1.isScalar = true
  given : (log t.session.app).Perm
    (t.inquiries.filterMap Inquiry.given? ++ t.departures.flatMap (Departure.given q))
  queued : (t.inquiries.filterMap Inquiry.queued?).Perm
    (t.departures.flatMap Departure.requests ++ q.pending)
  untold : ∀ b ∈ t.departures, b.fetched = none → b.told = []
  asked : ∀ b ∈ t.departures, b.requests ≠ [] ∧ b.asked = FetchQueue.distinctIds b.requests

/-- The queue as it is made: nothing waits, and no timer of it is live. -/
structure Fresh (n : Nat) (log : α → List (κ × Except Error Record)) (s : Session κ α) (q : FetchQueue κ) :
    Prop where
  queue : s.queues[n]? = some q
  timed : q.Timed
  pending : q.pending = []
  timer : q.timer = none
  timers : ∀ timer ∈ s.timers, timer.queue = n → Timers.isLive timer = false
  log : log s.app = []

theorem Fresh.balanced (h : Fresh n log s q) : (start s).Balanced n log q := by
  have hArmed : Session.Armed n s q 0 := by
    refine ⟨h.queue, by simp [h.pending, h.timer], fun m hSlot => ?_, fun m timer hTimer hQueue hLive => ?_⟩
    · rw [h.timer] at hSlot
      cases hSlot
    · rw [h.timers timer (List.mem_of_getElem? hTimer) hQueue] at hLive
      cases hLive
  refine ⟨hArmed, h.timed, by simp [start], by simp [h.pending], ?_, ?_, by simp [start], by simp [start]⟩
  · rw [start, h.log]
    exact .nil
  · rw [h.pending]
    exact .nil

/-! ### Steps -/

theorem perm_insert {l before after : List β} (x : β) (h : l.Perm (before ++ after)) :
    (l ++ [x]).Perm (before ++ x :: after) :=
  (List.perm_append_singleton x l).trans ((h.cons x).trans List.perm_middle.symm)

variable {β' : Type} {l before after : List β} {b b' : β}

theorem forall_mem_replace {p : β → Prop} (h : ∀ x ∈ l, p x) (hl : l = before ++ b :: after)
    (hb : p b → p b') : ∀ x ∈ before ++ b' :: after, p x := by
  rw [hl, List.forall_mem_append, List.forall_mem_cons] at h
  rw [List.forall_mem_append, List.forall_mem_cons]
  exact ⟨h.1, hb h.2.1, h.2.2⟩

theorem filterMap_replace {f : β → Option β'} (h : f b' = f b) :
    (before ++ b' :: after).filterMap f = (before ++ b :: after).filterMap f := by
  rw [List.filterMap_append, List.filterMap_append, List.filterMap_cons, List.filterMap_cons, h]

theorem flatMap_replace {f : β → List β'} (h : f b' = f b) :
    (before ++ b' :: after).flatMap f = (before ++ b :: after).flatMap f := by
  rw [List.flatMap_append, List.flatMap_append, List.flatMap_cons, List.flatMap_cons, h]

namespace Balanced

theorem passes (h : t.Balanced n log q) {s : Session κ α} (hPasses : Session.Passes n log [] t.session s) :
    Balanced n log { t with session := s } q :=
  { h with
    armed := h.armed.passes hPasses
    given := by
      rw [hPasses.given, List.append_nil]
      exact h.given }

theorem lookUp (h : t.Balanced n log q) {id : Json} (hId : id.isScalar = true) (caller : κ)
    (found : Option Record) :
    Balanced n log { t with inquiries := t.inquiries ++ [{ id, caller, found }] } q :=
  { h with
    inquired := by
      intro i hi
      rcases List.mem_append.mp hi with hi | hi
      · exact h.inquired i hi
      · rw [List.mem_singleton.mp hi]
        exact hId
    given := by
      rw [List.filterMap_append]
      simpa [Inquiry.given?] using h.given
    queued := by
      rw [List.filterMap_append]
      simpa [Inquiry.queued?] using h.queued }

variable {i : Inquiry κ} {before after : List (Inquiry κ)}

theorem giveAtOnce (h : t.Balanced n log q) (hInquiries : t.inquiries = before ++ i :: after)
    (hOpen : i.closed = false)
    {r : Record} (hFound : i.found = some r) {s : Session κ α}
    (hTold : Session.Passes n log [(i.caller, .ok r)] t.session s) :
    Balanced n log { t with session := s, inquiries := before ++ { i with closed := true } :: after } q :=
  { h with
    armed := h.armed.passes hTold
    inquired := forall_mem_replace h.inquired hInquiries fun hId => hId
    given := by
      have hOld := h.given
      rw [hInquiries, List.filterMap_append, List.filterMap_cons] at hOld
      simp only [Inquiry.given?, hOpen] at hOld
      rw [hTold.given, List.filterMap_append, List.filterMap_cons]
      simp only [Inquiry.given?, hFound]
      rw [List.append_assoc] at hOld ⊢
      exact perm_insert _ hOld
    queued := by
      have hNever : Inquiry.queued? { i with closed := true } = i.queued? := by
        simp [Inquiry.queued?, hOpen, hFound]
      rw [filterMap_replace hNever, ← hInquiries]
      exact h.queued }

theorem enqueue (h : t.Balanced n log q) (hInquiries : t.inquiries = before ++ i :: after)
    (hOpen : i.closed = false)
    (hFound : i.found = none) :
    Balanced n log
      { t with
        session := t.session.enqueue n i.id i.caller
        inquiries := before ++ { i with closed := true } :: after }
      (q.enqueue i.id i.caller t.session.timers.length) :=
  { h with
    armed := h.armed.enqueue i.id i.caller
    inquired := forall_mem_replace h.inquired hInquiries fun hId => hId
    pending := by
      have hId := h.inquired i (by simp [hInquiries])
      rw [FetchQueue.enqueue, List.forall_mem_append]
      exact ⟨h.pending, by simpa using hId⟩
    given := by
      have hNever : Inquiry.given? { i with closed := true } = i.given? := by
        simp [Inquiry.given?, hOpen, hFound]
      rw [filterMap_replace hNever, ← hInquiries]
      exact h.given
    queued := by
      have hOld := h.queued
      rw [hInquiries, List.filterMap_append, List.filterMap_cons] at hOld
      simp only [Inquiry.queued?, hOpen] at hOld
      rw [List.filterMap_append, List.filterMap_cons]
      simp only [Inquiry.queued?, hFound]
      rw [FetchQueue.enqueue, ← List.append_assoc]
      exact (perm_insert _ hOld.symm).symm }

theorem drainNothing (h : t.Balanced n log q) {flushes : Nat} (hFlushes : t.flushes = flushes + 1)
    (hPending : q.pending = []) :
    Balanced n log { t with session := t.session.drain n, flushes } q.drained :=
  { h with
    armed := (hFlushes ▸ h.armed).drain
    pending := fun request hRequest => (nomatch hRequest)
    queued := by
      have hOld := h.queued
      rw [hPending] at hOld
      exact hOld }

theorem drain (h : t.Balanced n log q) {flushes : Nat} (hFlushes : t.flushes = flushes + 1)
    (hPending : q.pending ≠ [])
    {asked : List Json} (hAsked : FetchQueue.batchIds q.pending = .ok asked) :
    Balanced n log
      { t with
        session := t.session.drain n, flushes
        departures := t.departures ++ [{ asked, rest := q.pending }] }
      q.drained :=
  { h with
    armed := (hFlushes ▸ h.armed).drain
    pending := fun request hRequest => (nomatch hRequest)
    given := by
      have hUntold : Departure.given q.drained { asked, rest := q.pending } = [] := rfl
      rw [List.flatMap_append, List.flatMap_singleton, hUntold, List.append_nil]
      exact h.given
    queued := by
      rw [List.flatMap_append]
      simpa [Departure.requests, FetchQueue.drained] using h.queued
    untold := by
      rw [List.forall_mem_append]
      exact ⟨h.untold, by simp⟩
    asked := by
      rw [FetchQueue.batchIds_eq h.pending] at hAsked
      cases hAsked
      rw [List.forall_mem_append]
      exact ⟨h.asked, by simpa [Departure.requests] using hPending⟩ }

variable {b : Departure κ} {earlier later : List (Departure κ)}

theorem fetch (h : t.Balanced n log q) (hDepartures : t.departures = earlier ++ b :: later)
    (hFetched : b.fetched = none)
    (result : Except Error (List Record)) :
    Balanced n log { t with departures := earlier ++ { b with fetched := some result } :: later } q := by
  have hUntold : b.told = [] := h.untold b (by simp [hDepartures]) hFetched
  exact { h with
    given := by
      have hNobody : Departure.given q { b with fetched := some result } = b.given q := by
        simp [Departure.given, hFetched, hUntold]
      rw [flatMap_replace hNobody, ← hDepartures]
      exact h.given
    queued := by
      have hRequests : Departure.requests { b with fetched := some result } = b.requests := rfl
      rw [flatMap_replace hRequests, ← hDepartures]
      exact h.queued
    untold := forall_mem_replace h.untold hDepartures fun _ _ => hUntold
    asked := forall_mem_replace h.asked hDepartures fun hAsked => hAsked }

theorem deliver (h : t.Balanced n log q) (hDepartures : t.departures = earlier ++ b :: later)
    {result : Except Error (List Record)} (hFetched : b.fetched = some result) {request : Json × κ}
    {rest : List (Json × κ)} (hRest : b.rest = request :: rest) {s : Session κ α}
    (hTold : Session.Passes n log [(request.2, q.outcome result request.1)] t.session s) :
    Balanced n log
      { t with
        session := s
        departures := earlier ++ { b with told := b.told ++ [request], rest } :: later } q := by
  have hRequests : Departure.requests { b with told := b.told ++ [request], rest } = b.requests := by
    rw [Departure.requests, Departure.requests, hRest, List.append_assoc, List.singleton_append]
  exact { h with
    armed := h.armed.passes hTold
    given := by
      have hOld := h.given
      rw [hDepartures, List.flatMap_append, List.flatMap_cons] at hOld
      rw [hTold.given, List.flatMap_append, List.flatMap_cons]
      simp only [Departure.given, hFetched] at hOld ⊢
      rw [List.map_append, List.map_singleton]
      simp only [← List.append_assoc] at hOld ⊢
      rw [List.append_assoc, List.singleton_append]
      exact perm_insert _ hOld
    queued := by
      rw [flatMap_replace hRequests, ← hDepartures]
      exact h.queued
    untold := by
      refine forall_mem_replace h.untold hDepartures fun _ hNone => ?_
      rw [hFetched] at hNone
      cases hNone
    asked := by
      refine forall_mem_replace h.asked hDepartures fun hAsked => ?_
      rw [hRequests]
      exact hAsked }

/-- A step keeps the balance, and the queue stays the one of its class. -/
theorem step (h : t.Balanced n log q) (hStep : Step n log t t') :
    ∃ q', q'.className = q.className ∧ q'.store = q.store ∧ t'.Balanced n log q' := by
  cases hStep with
  | @lookUp _ _ _ _ disk hQueue hId hFound =>
    exact ⟨q, rfl, rfl, (h.passes (.onDisk log t.session disk)).lookUp hId _ _⟩
  | giveAtOnce hInquiries hOpen hFound hTold =>
      exact ⟨q, rfl, rfl, h.giveAtOnce hInquiries hOpen hFound hTold⟩
  | enqueue hInquiries hOpen hFound => exact ⟨q.enqueue _ _ _, rfl, rfl, h.enqueue hInquiries hOpen hFound⟩
  | flush => exact ⟨q, rfl, rfl, { h with armed := h.armed.flush }⟩
  | fire hTimer hQueue => exact ⟨q, rfl, rfl, { h with armed := h.armed.fire _ }⟩
  | drainNothing hFlushes hQueue hPending =>
    cases h.armed.queue.symm.trans hQueue
    exact ⟨q.drained, rfl, rfl, h.drainNothing hFlushes hPending⟩
  | drain hFlushes hQueue hPending hAsked =>
    cases h.armed.queue.symm.trans hQueue
    exact ⟨q.drained, rfl, rfl, h.drain hFlushes hPending hAsked⟩
  | @fetch _ _ _ _ _ disk hDepartures hFetched hQueue hKeeps =>
    exact ⟨q, rfl, rfl, (h.passes (.onDisk log t.session disk)).fetch hDepartures hFetched _⟩
  | deliver hDepartures hFetched hRest hQueue hTold =>
    cases h.armed.queue.symm.trans hQueue
    exact ⟨q, rfl, rfl, h.deliver hDepartures hFetched hRest hTold⟩
  | other hPasses => exact ⟨q, rfl, rfl, h.passes hPasses⟩

theorem run (h : t.Balanced n log q) (hRun : Run n log t t') :
    ∃ q', q'.className = q.className ∧ q'.store = q.store ∧ t'.Balanced n log q' := by
  induction hRun with
  | refl => exact ⟨q, rfl, rfl, h⟩
  | tail _ hStep ih =>
    obtain ⟨q₁, hClass, hStore, hBefore⟩ := ih
    obtain ⟨q₂, hClass₂, hStore₂, hAfter⟩ := hBefore.step hStep
    exact ⟨q₂, hClass₂.trans hClass, hStore₂.trans hStore, hAfter⟩

theorem callers_given (h : t.Balanced n log q) :
    (t.departures.flatMap (Departure.given q)).map Prod.fst =
      t.departures.flatMap fun b => b.told.map Prod.snd := by
  rw [List.map_flatMap]
  refine List.flatMap_congr fun b hb => ?_
  cases hFetched : b.fetched with
  | none => simp only [Departure.given, hFetched, h.untold b hb hFetched, List.map_nil]
  | some result => simp only [Departure.given, hFetched, List.map_map, Function.comp_def]

theorem once (h : t.Balanced n log q) :
    (t.inquiries.map (·.caller)).Perm ((log t.session.app).map Prod.fst ++ t.waiting q) := by
  classical
  have hGiven := h.given.map Prod.fst
  have hQueued := h.queued.map Prod.snd
  rw [List.map_append, h.callers_given] at hGiven
  rw [List.map_append, List.map_flatMap] at hQueued
  have hRequests : (t.departures.flatMap fun b => b.requests.map Prod.snd).Perm
      ((t.departures.flatMap fun b => b.told.map Prod.snd) ++
        t.departures.flatMap fun b => b.rest.map Prod.snd) := by
    simp only [Departure.requests, List.map_append]
    exact (List.flatMap_append_perm _ _ _).symm
  -- count the calls that one caller is due: given, or queued and then told or left, or still looked up
  refine List.perm_iff_count.mpr fun k => ?_
  have hInquired := (Inquiry.callers_perm t.inquiries).count_eq k
  have hGiven := hGiven.count_eq k
  have hQueued := hQueued.count_eq k
  have hRequests := hRequests.count_eq k
  simp only [waiting, List.count_append] at hInquired hGiven hQueued hRequests ⊢
  omega

theorem accounted (h : t.Balanced n log q) : t.Accounted n log q where
  queue := h.armed.queue
  once := h.once
  given := h.given
  queued := h.queued
  settled := fun _ _ result _ request _ => q.settles_outcome result request.1
  untold := h.untold
  asked := by
    intro b hb
    obtain ⟨hSome, hAsked⟩ := h.asked b hb
    exact ⟨hAsked ▸ FetchQueue.distinctIds_ne_nil hSome, hAsked⟩
  waits := h.armed.waits
  armed := by
    rintro ⟨-, hFlushes, -⟩ m hSlot
    obtain ⟨timer, hTimer, hQueue, hCancelled, hFired⟩ := h.armed.slot m hSlot
    refine ⟨timer, hTimer, hQueue, ?_⟩
    rw [hFlushes] at hFired
    rw [Timers.isLive, hCancelled, Bool.eq_false_iff.mpr fun hYes => Nat.lt_irrefl 0 (hFired hYes)]
    rfl
  others := h.armed.others

end Balanced

theorem Accounted.all_told (h : t.Accounted n log q) (hIdle : t.Idle) (hPending : q.pending = []) :
    (t.inquiries.map (·.caller)).Perm ((log t.session.app).map Prod.fst) := by
  obtain ⟨hClosed, -, hDone⟩ := hIdle
  have hOpen : t.inquiries.filterMap Inquiry.open? = [] := by
    refine List.filterMap_eq_nil_iff.mpr fun i hi => ?_
    rw [Inquiry.open?, if_pos (hClosed i hi)]
  have hRest : (t.departures.flatMap fun b => b.rest.map Prod.snd) = [] := by
    refine List.flatMap_eq_nil_iff.mpr fun b hb => ?_
    rw [(hDone b hb).2, List.map_nil]
  have hOnce := h.once
  rw [waiting, hOpen, hPending, hRest] at hOnce
  simpa using hOnce

end RecordCache.Traffic
