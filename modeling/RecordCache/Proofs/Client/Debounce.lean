import RecordCache.Client.Fetching

/-!
# The wait of a queue

Each request puts the departure of a queue off, and each departure ends the wait. `Armed` is what holds
between any two of these: requests wait exactly when a timer is set, no older timer of the queue is live,
and the one that is set has not fired without a flush being on its way.
-/

namespace RecordCache.Session

variable {κ α : Type} {n m : Nat} {s s' : Session κ α} {q : FetchQueue κ} {flushes : Nat}

/-- What goes on while a queue and its timers are left alone. Of the application only the outcomes that
callbacks were given matter, as it logs them. -/
structure Passes (n : Nat) (log : α → List (κ × Except Error Record))
    (given : List (κ × Except Error Record))
    (s s' : Session κ α) : Prop where
  queue : s'.queues[n]? = s.queues[n]?
  timers : ∀ (m : Nat) (timer : Timer),
    timer.queue = n → (s'.timers[m]? = some timer ↔ s.timers[m]? = some timer)
  given : log s'.app = log s.app ++ given

theorem Passes.onDisk (log : α → List (κ × Except Error Record)) (s : Session κ α) (disk : Disk) :
    Passes n log [] s { s with disk } :=
  ⟨rfl, fun _ _ _ => .rfl, (List.append_nil _).symm⟩

/-- How the wait of a queue stands, with so many flushes on their way to it. -/
structure Armed (n : Nat) (s : Session κ α) (q : FetchQueue κ) (flushes : Nat) : Prop where
  queue : s.queues[n]? = some q
  waits : q.pending ≠ [] ↔ q.timer.isSome
  slot : ∀ m, q.timer = some m → ∃ timer, s.timers[m]? = some timer ∧ timer.queue = n ∧
    timer.cancelled = false ∧ (timer.fired = true → 0 < flushes)
  others : ∀ m timer, s.timers[m]? = some timer → timer.queue = n → Timers.isLive timer = true →
    q.timer = some m

/-! ### Timers -/

theorem getElem?_cancelTimer (slot : Option Nat) (ts : Timers) (m : Nat) :
    (cancelTimer slot ts)[m]? =
      ts[m]?.map fun t => if slot = some m then { t with cancelled := true } else t := by
  cases slot with
  | none => simp [cancelTimer]
  | some k =>
    rw [cancelTimer, Timers.cancel, List.getElem?_modify]
    cases ts[m]? with
    | none => rfl
    | some t => simp

theorem length_cancelTimer (slot : Option Nat) (ts : Timers) :
    (cancelTimer slot ts).length = ts.length := by
  cases slot with
  | none => rfl
  | some k => rw [cancelTimer, Timers.cancel, List.length_modify]

namespace Armed

theorem passes {log : α → List (κ × Except Error Record)} {given : List (κ × Except Error Record)}
    (h : Armed n s q flushes) (hPasses : Passes n log given s s') : Armed n s' q flushes := by
  refine ⟨hPasses.queue.trans h.queue, h.waits, fun m hSlot => ?_, fun m timer hTimer hQueue hLive => ?_⟩
  · obtain ⟨timer, hTimer, hQueue, hRest⟩ := h.slot m hSlot
    exact ⟨timer, (hPasses.timers m timer hQueue).mpr hTimer, hQueue, hRest⟩
  · exact h.others m timer ((hPasses.timers m timer hQueue).mp hTimer) hQueue hLive

/-- No timer of the queue outlives that the one which is set is cancelled. -/
theorem cancelled (h : Armed n s q flushes) {timer : Timer}
    (hTimer : (cancelTimer q.timer s.timers)[m]? = some timer)
    (hQueue : timer.queue = n) : Timers.isLive timer = false := by
  rw [getElem?_cancelTimer] at hTimer
  obtain ⟨old, hOld, rfl⟩ := Option.map_eq_some_iff.mp hTimer
  by_cases hSlot : q.timer = some m
  · rw [if_pos hSlot]
    rfl
  · rw [if_neg hSlot] at hQueue ⊢
    exact Bool.eq_false_iff.mpr fun hLive => hSlot (h.others m old hOld hQueue hLive)

theorem enqueue (h : Armed n s q flushes) (id : Json) (caller : κ) :
    Armed n (Session.enqueue n id caller s) (q.enqueue id caller s.timers.length) flushes := by
  have hTimers : (Session.enqueue n id caller s).timers =
      cancelTimer q.timer s.timers ++ [{ delay := s.registry.debounce, queue := n }] := by
    rw [Session.enqueue, h.queue]
    rfl
  refine ⟨?_, ?_, fun m hSlot => ?_, fun m timer hTimer hQueue hLive => ?_⟩
  · rw [Session.enqueue, List.getElem?_modify, h.queue]
    simp [length_cancelTimer]
  · simp [FetchQueue.enqueue]
  · cases hSlot
    refine ⟨{ delay := s.registry.debounce, queue := n }, ?_, rfl, rfl, fun hFired => (nomatch hFired)⟩
    rw [hTimers, ← length_cancelTimer q.timer, List.getElem?_concat_length]
  · rw [hTimers] at hTimer
    -- the timers from before are cancelled or have fired, so that a live one is the new one
    by_cases hOld : m < (cancelTimer q.timer s.timers).length
    · rw [List.getElem?_append_left hOld] at hTimer
      rw [h.cancelled hTimer hQueue] at hLive
      cases hLive
    · have hLength := (List.getElem?_eq_some_iff.mp hTimer).1
      rw [List.length_append, List.length_singleton] at hLength
      have hLast : m = s.timers.length := by
        rw [length_cancelTimer] at hOld hLength
        omega
      rw [hLast]
      rfl

theorem drain (h : Armed n s q (flushes + 1)) : Armed n (Session.drain n s) q.drained flushes := by
  have hTimers : (Session.drain n s).timers = cancelTimer q.timer s.timers := by
    rw [Session.drain, h.queue]
    rfl
  refine ⟨?_, by simp [FetchQueue.drained], fun m hSlot => (nomatch hSlot),
    fun m timer hTimer hQueue hLive => ?_⟩
  · rw [Session.drain, List.getElem?_modify, h.queue]
    simp
  · rw [hTimers] at hTimer
    rw [h.cancelled hTimer hQueue] at hLive
    cases hLive

theorem flush (h : Armed n s q flushes) : Armed n s q (flushes + 1) := by
  refine ⟨h.queue, h.waits, fun m hSlot => ?_, h.others⟩
  obtain ⟨timer, hTimer, hQueue, hCancelled, -⟩ := h.slot m hSlot
  exact ⟨timer, hTimer, hQueue, hCancelled, fun _ => Nat.succ_pos _⟩

/-- A timer may fire late: after it was cancelled, or when another one is set. -/
theorem fire (h : Armed n s q flushes) (m : Nat) :
    Armed n { s with timers := s.timers.fire m } q (flushes + 1) := by
  have hFired : ∀ k : Nat, (s.timers.fire m)[k]? = s.timers[k]?.map fun t =>
    if m = k then { t with fired := true } else t := by
    intro k
    rw [Timers.fire, List.getElem?_modify]
    cases s.timers[k]? with
    | none => rfl
    | some t => simp
  refine ⟨h.queue, h.waits, fun k hSlot => ?_, fun k timer hTimer hQueue hLive => ?_⟩
  · obtain ⟨timer, hTimer, hQueue, hCancelled, -⟩ := h.slot k hSlot
    refine ⟨_, (hFired k).trans (congrArg _ hTimer), ?_, ?_, fun _ => Nat.succ_pos _⟩
    · split <;> exact hQueue
    · split <;> exact hCancelled
  · obtain ⟨old, hOld, rfl⟩ := Option.map_eq_some_iff.mp ((hFired k).symm.trans hTimer)
    by_cases hSame : m = k
    · rw [if_pos hSame] at hLive
      simp [Timers.isLive] at hLive
    · rw [if_neg hSame] at hQueue hLive
      exact h.others k old hOld hQueue hLive

end Armed

end RecordCache.Session
