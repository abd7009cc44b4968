import RecordCache.Proofs.Client.Registry
import RecordCache.Proofs.LocalStore.AnyDisk

/-!
# What callers are told

A failure of the cache ends where it comes up. What a client is asked to do never fails over the cache, and no
callback is ever told of such a failure, as long as the server does not answer with one: work with some callbacks
runs just as it does with others that would do something else when they are told of one.
-/

namespace RecordCache

/-- The outcome is no failure of the cache. -/
def Delivery.Clean : Delivery → Prop
  | .record outcome => FailsElsewhere outcome
  | .records outcome => FailsElsewhere outcome
  | .relation outcome => FailsElsewhere outcome

namespace Session

open LocalStore (Serving Shielded)

variable {κ α β γ : Type}

/-! ### Jobs -/

/-- What a client is asked to do, by what it gives. -/
inductive Job (κ : Type) : Type → Type
  | data (q : Query) : Job κ Answer
  | count (q : Query) : Job κ Json
  /-- A single record is asked for. -/
  | get (className : String) (id : Json) (caller : κ) : Job κ Unit
  /-- The requests of a queue go out as one batch. -/
  | flush (queue : Nat) : Job κ Unit
  /-- All batches go out whose time has come. -/
  | timers : Job κ Unit
  | populate (className : String) (callback : Option κ) : Job κ (List Record)
  | save (b : Batch) : Job κ Record
  | update (b : Batch) : Job κ (Option Record)
  | delete (b : Batch) : Job κ Unit

def Job.perform (notify : Notify κ α) : Job κ β → Work κ α β
  | .data q => Session.data q
  | .count q => Session.count q
  | .get className id caller => do fetchOne notify (← queueFor className) id caller
  | .flush queue => Session.flush notify fetchByIds queue
  | .timers => runTimers notify fetchByIds
  | .populate className callback => Session.populate notify className callback
  | .save b => create b
  | .update b => Session.update b
  | .delete b => Session.delete b

/-! ### Nothing is let through -/

namespace Speaks

theorem alter {f : Session κ α → Session κ α} (h : ∀ s, (f s).server = s.server) :
    GoesOn Speaks (modify f : Work κ α PUnit) := by
  refine .of_runs fun s hSpeaks => ⟨_, f s, .alter f s, ?_, .ret _⟩
  rwa [Speaks, h]

theorem serve {serving : Serving β} (h : Shielded serving) : GoesOn Speaks (Session.serve serving : Work κ α β) := by
  intro s r t hSpeaks hRun
  obtain ⟨disk, hServing, rfl⟩ := exists_of_serve hRun
  exact ⟨hSpeaks, (h _ _ _ trivial hServing).2⟩

theorem rewrites : Rewrites (fun β (work : Work κ α β) => GoesOn Speaks work) fun _ => True where
  toAsks := spreads.toAsks
  ownStore className _ hNone hSome := (store className .null).bind fun ref => by
    cases ref with
    | none => exact hNone
    | some ref => exact hSome ref trivial
  persist _ r listed := serve (.persist _ r listed)
  remove _ id := serve (.remove _ id)
  relate _ := alter fun _ => rfl
  found _ _ := serve (.whenServed _)

theorem queueFor (className : String) : GoesOn Speaks (Session.queueFor className : Work κ α Nat) := by
  refine (store _ _).bind fun store s r t hSpeaks hRun => ?_
  have hRest := Runs.of_get hRun
  cases hQueue : s.registry.queues.get? className with
  | some n =>
    rw [hQueue] at hRest
    obtain ⟨rfl, rfl⟩ := hRest.unique (.ret n s)
    exact ⟨hSpeaks, .ret n⟩
  | none =>
    rw [hQueue] at hRest
    obtain ⟨rfl, rfl⟩ := (run_of_set hRest).unique (.ret _ _)
    exact ⟨hSpeaks, .ret _⟩

end Speaks

/-- From a session whose server speaks, the one piece of work runs as the other one does; it leaves such a session,
and does not fail over the cache. -/
def Echoes (work work' : Work κ α β) : Prop :=
  ∀ s r t, s.Speaks → Runs work s r t → Runs work' s r t ∧ t.Speaks ∧ FailsElsewhere r

namespace Echoes

variable {work work' : Work κ α β}

theorem self (h : GoesOn Speaks work) : Echoes work work := fun s r t hSpeaks hRun => ⟨hRun, h s r t hSpeaks hRun⟩

theorem bind {next next' : β → Work κ α γ} (h : Echoes work work') (hNext : ∀ b, Echoes (next b) (next' b)) :
    Echoes (work >>= next) (work' >>= next') := by
  intro s r t hSpeaks hRun
  obtain ⟨b, u, hFirst, hRest⟩ | ⟨e, rfl, hFirst⟩ := Runs.bind_iff.mp hRun
  · obtain ⟨hFirst', hLeft, -⟩ := h _ _ _ hSpeaks hFirst
    obtain ⟨hRest', hEnd⟩ := hNext b _ _ _ hLeft hRest
    exact ⟨hFirst'.bind hRest', hEnd⟩
  · obtain ⟨hFirst', hLeft, hFails⟩ := h _ _ _ hSpeaks hFirst
    exact ⟨hFirst'.bind_fail, hLeft, .fail (hFails e rfl)⟩

theorem setting {f : Session κ α → Session κ α} {next next' : Session κ α → Work κ α β}
    (h : ∀ s, (f s).server = s.server) (hNext : ∀ s, Echoes (next s) (next' s)) :
    Echoes (do let s ← get; set (f s); next s) (do let s ← get; set (f s); next' s) := by
  intro s r t hSpeaks hRun
  refine hNext s (f s) r t ?_ (run_of_set (Runs.of_get hRun))
  rwa [Speaks, h]

/-- A failure that is caught is no failure of the cache either. -/
theorem attempt {next next' : Except Error β → Work κ α γ} (h : GoesOn Speaks work)
    (hNext : ∀ outcome, FailsElsewhere outcome → Echoes (next outcome) (next' outcome)) :
    Echoes (Session.attempt work >>= next) (Session.attempt work >>= next') := by
  intro s r t hSpeaks hRun
  obtain ⟨outcome, u, hWork, hRest⟩ := run_of_attempt hRun
  obtain ⟨hLeft, hFails⟩ := h _ _ _ hSpeaks hWork
  obtain ⟨hRest', hEnd⟩ := hNext outcome hFails _ _ _ hLeft hRest
  exact ⟨(runs_attempt hWork).bind hRest', hEnd⟩

theorem forM {tell tell' : γ → Work κ α Unit} (h : ∀ x, Echoes (tell x) (tell' x)) (xs : List γ) :
    Echoes (xs.forM tell) (xs.forM tell') := by
  induction xs with
  | nil => exact self (.ret ())
  | cons x rest ih => exact (h x).bind fun _ => ih

end Echoes

/-! ### Callbacks -/

/-- Callbacks do not fail, unless they are told of a failure of the cache: about that nothing is known. -/
def Calm (notify : Notify κ α) : Prop :=
  ∀ caller outcome s, outcome.Clean → s.Speaks → ∃ t, Runs (notify caller outcome) s (.ok ()) t ∧ t.Speaks

section Callbacks

variable {notify notify' : Notify κ α} (hCalm : Calm notify)
  (hClean : ∀ caller outcome, outcome.Clean → notify' caller outcome = notify caller outcome)

include hCalm hClean

theorem echoes_notify (caller : κ) {outcome : Delivery} (h : outcome.Clean) :
    Echoes (notify caller outcome) (notify' caller outcome) := by
  rw [hClean caller outcome h]
  refine .self (.of_runs fun s hSpeaks => ?_)
  obtain ⟨t, hRun, hLeft⟩ := hCalm caller outcome s h hSpeaks
  exact ⟨_, t, hRun, hLeft, .ret ()⟩

theorem echoes_fetchOne (n : Nat) (id : Json) (caller : κ) :
    Echoes (fetchOne notify n id caller) (fetchOne notify' n id caller) := by
  refine .bind (.self Speaks.state) fun s => ?_
  cases s.queues[n]? with
  | none => exact .self (.ret ())
  | some q =>
    refine .bind (.self (Speaks.serve (q.shielded_lookUp id))) fun found => ?_
    cases found with
    | some r => exact echoes_notify hCalm hClean caller (.ret r)
    | none => exact .self (Speaks.alter fun _ => rfl)

theorem echoes_flush (n : Nat) : Echoes (flush notify fetchByIds n) (flush notify' fetchByIds n) := by
  refine .bind (.self Speaks.state) fun s => ?_
  cases s.queues[n]? with
  | none => exact .self (.ret ())
  | some q =>
    refine .bind (.self (Speaks.alter fun _ => rfl)) fun _ => ?_
    cases q.pending.isEmpty with
    | true => exact .self (.ret ())
    | false =>
      refine .bind (.self (Speaks.spreads.ofData _)) fun ids =>
        .attempt (Speaks.spreads.fetchMany q.className ids) fun fetched hFetched => ?_
      have hEach (request : Json × κ) : Echoes (notify request.2 (.record (q.outcome fetched request.1)))
          (notify' request.2 (.record (q.outcome fetched request.1))) :=
        echoes_notify hCalm hClean request.2 (q.failsElsewhere_outcome hFetched request.1)
      have hTold := Echoes.forM hEach q.pending
      cases fetched with
      | ok records => exact .bind (.self (Speaks.serve (q.shielded_keep records))) fun _ => hTold
      | error e => exact hTold

theorem echoes_runTimers : Echoes (runTimers notify fetchByIds) (runTimers notify' fetchByIds) := by
  refine .bind (.self Speaks.state) fun s => .forM (fun n => ?_) s.timers.live
  refine .bind (.self Speaks.state) fun s => .bind (.self (Speaks.alter fun _ => rfl)) fun _ => ?_
  cases s.timers[n]? with
  | some timer => exact echoes_flush hCalm hClean timer.queue
  | none => exact .self (.ret ())

theorem echoes_populateBy (ref : StoreRef) (callback : Option κ) {fetch : Work κ α (List Record)}
    (h : GoesOn Speaks fetch) :
    Echoes (populateBy notify ref callback fetch) (populateBy notify' ref callback fetch) := by
  rw [populateBy, populateBy]
  refine .setting (fun _ => rfl) fun s => ?_
  cases s.populations.get? ref.number with
  | some waiting => exact .self (.ret none)
  | none =>
    refine .attempt (h.bind fun _ => .bind (Speaks.serve (.swap _ _)) fun _ => .ret _) fun fetched hFetched =>
      .setting (fun _ => rfl) fun s => ?_
    have hEach (caller : κ) : Echoes (notify caller (.records fetched)) (notify' caller (.records fetched)) :=
      echoes_notify hCalm hClean caller hFetched
    exact .bind (.forM hEach _) fun _ => .self (.map some (Speaks.ofExcept hFetched))

theorem echoes_populate (className : String) (callback : Option κ) :
    Echoes (populate notify className callback) (populate notify' className callback) := by
  refine .bind (.self (Speaks.store _ _)) fun ref => ?_
  cases ref with
  | none => exact .self (.fail rfl)
  | some ref =>
    exact .bind (echoes_populateBy hCalm hClean ref callback (Speaks.spreads.fetchAll _)) fun _ => .self (.ret _)

theorem Job.echoes (job : Job κ β) : Echoes (job.perform notify) (job.perform notify') := by
  cases job with
  | data q => exact .self (Speaks.spreads.data q)
  | count q => exact .self (Speaks.spreads.count q)
  | get className id caller =>
    exact .bind (.self (Speaks.queueFor className)) fun n => echoes_fetchOne hCalm hClean n id caller
  | flush n => exact echoes_flush hCalm hClean n
  | timers => exact echoes_runTimers hCalm hClean
  | populate className callback => exact echoes_populate hCalm hClean className callback
  | save b => exact .self (Speaks.rewrites.create b)
  | update b => exact .self (Speaks.rewrites.update b)
  | delete b => exact .self (Speaks.rewrites.delete b)

end Callbacks

end Session

end RecordCache
