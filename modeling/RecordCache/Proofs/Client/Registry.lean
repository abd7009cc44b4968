import RecordCache.Proofs.Client.Windows
import RecordCache.Proofs.Client.Writes

/-!
# What calls do to the registry

Every call leaves a registry in which windows are numbers and each store has the window of its class, whatever the
call comes to.
-/

namespace RecordCache.Session

open LocalStore (Serving)

variable {κ α β γ : Type}

/-- Whatever the work comes to, it leaves a registry in which every store has the window of its class. -/
def KeepsRegistry (work : Work κ α β) : Prop := Moves (fun s t => s.registry.Consistent → t.registry.Consistent) work

namespace KeepsRegistry

theorem of_aside {work : Work κ α β} (h : Aside work) : KeepsRegistry work := by
  intro s result t hRun hConsistent
  rw [(h s result t hRun).2]
  exact hConsistent

theorem ret (b : β) : KeepsRegistry (pure b : Work κ α β) := Moves.ret (fun _ => id) b

theorem ofExcept (r : Except Error β) : KeepsRegistry (Session.ofExcept r : Work κ α β) := of_aside (.ofExcept r)

theorem bind {work : Work κ α γ} {next : γ → Work κ α β} (h : KeepsRegistry work)
    (hNext : ∀ c, KeepsRegistry (next c)) : KeepsRegistry (work >>= next) :=
  Moves.bind (fun _ _ _ h h' hConsistent => h' (h hConsistent)) h hNext

theorem map {work : Work κ α γ} (f : γ → β) (h : KeepsRegistry work) : KeepsRegistry (f <$> work) := Moves.map f h

theorem serve (serving : Serving β) : KeepsRegistry (Session.serve serving : Work κ α β) := by
  intro s result t hRun hConsistent
  obtain ⟨disk, -, rfl⟩ := exists_of_serve hRun
  exact hConsistent

theorem state : KeepsRegistry (get : Work κ α (Session κ α)) := Moves.of_runs fun s => ⟨_, s, .state s, id⟩

theorem alter {f : Session κ α → Session κ α} (h : ∀ s, (f s).registry = s.registry) :
    KeepsRegistry (modify f : Work κ α PUnit) :=
  Moves.of_runs fun s => ⟨_, f s, .alter f s, fun hConsistent => (h s).symm ▸ hConsistent⟩

theorem attempt {work : Work κ α β} (h : KeepsRegistry work) : KeepsRegistry (Session.attempt work) := moves_attempt h

theorem store (className : String) (window : Json) :
    KeepsRegistry (Session.store className window : Work κ α (Option StoreRef)) :=
  Moves.of_runs fun s => ⟨_, _, runs_store className window s, fun h => h.store className window⟩

theorem spreads : Spreads fun β (work : Work κ α β) => KeepsRegistry work :=
  Spreads.moves (fun _ _ _ h h' hConsistent => h' (h hConsistent))
    (fun _ _ h hConsistent => h.2.symm ▸ hConsistent) (fun _ className window h => h.store className window)
    fun _ _ => id

theorem register (className : String) (window : Json) :
    KeepsRegistry (Session.register className window : Work κ α Unit) := by
  intro s result t hRun hConsistent
  have hRest := Runs.of_get hRun
  obtain ⟨registry, s', hRegister, hSet⟩ | ⟨e, -, hRegister⟩ := Runs.bind_iff.mp hRest
  · obtain ⟨hOk, rfl⟩ := hRegister.unique (runs_ofExcept _ _)
    obtain ⟨-, rfl⟩ := hSet.unique (.put _ _)
    exact hConsistent.register hOk.symm
  · obtain ⟨-, rfl⟩ := hRegister.unique (runs_ofExcept _ _)
    exact hConsistent

theorem rewrites : Rewrites (fun β (work : Work κ α β) => KeepsRegistry work) fun _ => True where
  toAsks := spreads.toAsks
  ownStore className _ hNone hSome := (store className .null).bind fun ref => by
    cases ref with
    | none => exact hNone
    | some ref => exact hSome ref trivial
  persist _ _ _ := serve _
  remove _ _ := serve _
  relate _ := alter fun _ => rfl
  found _ _ := serve _

theorem create (b : Batch) : KeepsRegistry (Session.create b : Work κ α Record) := rewrites.create b

theorem update (b : Batch) : KeepsRegistry (Session.update b : Work κ α (Option Record)) := rewrites.update b

theorem delete (b : Batch) : KeepsRegistry (Session.delete b : Work κ α Unit) := rewrites.delete b

section Notified

variable {notify : Notify κ α} (hNotify : ∀ caller outcome, Aside (notify caller outcome))
include hNotify

theorem populateBy (ref : StoreRef) (callback : Option κ) {fetch : Work κ α (List Record)} (h : KeepsRegistry fetch) :
    KeepsRegistry (Session.populateBy notify ref callback fetch) := by
  have hFetched : KeepsRegistry (Session.attempt do
      let records ← fetch
      Session.serve (ref.store.swap records)
      return records) := (h.bind fun _ => (serve _).bind fun _ => ret _).attempt
  intro s result t hRun hConsistent
  have hRest := Runs.of_get hRun
  cases hFlying : s.populations.get? ref.number with
  | some waiting =>
    rw [hFlying] at hRest
    exact (ret none) _ _ _ (run_of_set hRest) hConsistent
  | none =>
    rw [hFlying] at hRest
    obtain ⟨outcome, u, hWork, hRest⟩ | ⟨e, -, hWork⟩ := Runs.bind_iff.mp (run_of_set hRest)
    · have hTold (waiting : List κ) : KeepsRegistry
          ((waiting.forM fun caller => notify caller (.records outcome)) >>= fun _ =>
            some <$> Session.ofExcept outcome) :=
        (of_aside (.forM (fun caller => hNotify caller _) waiting)).bind fun _ => (ofExcept outcome).map some
      have hLeft := hFetched _ _ _ hWork hConsistent
      exact hTold _ _ _ _ (run_of_set (Runs.of_get hRest)) hLeft
    · exact hFetched _ _ _ hWork hConsistent

theorem populate (className : String) (callback : Option κ) :
    KeepsRegistry (Session.populate notify className callback) := by
  refine (store _ _).bind fun ref => ?_
  cases ref with
  | none => exact ofExcept (.error _)
  | some ref => exact (populateBy hNotify ref callback (spreads.fetchAll _)).bind fun _ => ret _

theorem flush {fetch : Fetch κ α} (h : ∀ q ids, KeepsRegistry (fetch q ids)) (n : Nat) :
    KeepsRegistry (Session.flush notify fetch n) := by
  refine state.bind fun s => ?_
  cases s.queues[n]? with
  | none => exact ret _
  | some q =>
    refine bind (alter fun _ => rfl) fun _ => ?_
    cases q.pending.isEmpty with
    | true => exact ret _
    | false =>
      refine (ofExcept _).bind fun ids => (h q ids).attempt.bind fun fetched => ?_
      cases fetched with
      | ok records => exact (serve _).bind fun _ => of_aside (.forM (fun request => hNotify request.2 _) q.pending)
      | error e => exact of_aside (.forM (fun request => hNotify request.2 _) q.pending)

end Notified

end KeepsRegistry

end RecordCache.Session
