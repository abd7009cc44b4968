import RecordCache.Proofs.Except

/-!
# Runs of stateful work

`Runs work s result s'` tells what a piece of work comes to from a state, and the state that it leaves.
There is always exactly one run; the rules below build it step by step. `Moves R work` tells what all runs of the work
do to the state, where `R` goes from one state over another to a third one.
-/

namespace RecordCache

def Runs {ε σ α : Type} (work : ExceptT ε (StateM σ) α) (s : σ) (result : Except ε α) (s' : σ) : Prop :=
  work.run.run s = (result, s')

namespace Runs

variable {ε σ α β : Type} {work : ExceptT ε (StateM σ) α} {s s' s'' : σ}

theorem exists_run (work : ExceptT ε (StateM σ) α) (s : σ) : ∃ result s', Runs work s result s' :=
  ⟨_, _, rfl⟩

theorem unique {r r' : Except ε α} (h : Runs work s r s') (h' : Runs work s r' s'') : r = r' ∧ s' = s'' :=
  Prod.mk.inj (h.symm.trans h')

theorem final_eq {r : Except ε α} (h : Runs work s r s') :
    s' = (work.run.run s).2 := (congrArg Prod.snd h).symm

theorem ret (a : α) (s : σ) : Runs (pure a : ExceptT ε (StateM σ) α) s (.ok a) s := rfl

theorem ofExcept (r : Except ε α) (s : σ) : Runs (liftM r : ExceptT ε (StateM σ) α) s r s := rfl

theorem fail (e : ε) (s : σ) : Runs (throw e : ExceptT ε (StateM σ) α) s (.error e) s := rfl

theorem bind {next : α → ExceptT ε (StateM σ) β} {a : α} {r : Except ε β} (h : Runs work s (.ok a) s')
    (hNext : Runs (next a) s' r s'') : Runs (work >>= next) s r s'' := by
  have hStep : (work >>= next).run.run s = ExceptT.bindCont next (work.run.run s).1
    (work.run.run s).2 := rfl
  rw [Runs, hStep, h]
  exact hNext

theorem exists_bind {next : α → ExceptT ε (StateM σ) β} {a : α} {r : Except ε β} (h : Runs work s (.ok a) s')
    (hNext : ∃ t, Runs (next a) s' r t) : ∃ t, Runs (work >>= next) s r t := hNext.imp fun _ => h.bind

theorem bind_fail {next : α → ExceptT ε (StateM σ) β} {e : ε} (h : Runs work s (.error e) s') :
    Runs (work >>= next) s (.error e) s' := by
  have hStep : (work >>= next).run.run s = ExceptT.bindCont next (work.run.run s).1
    (work.run.run s).2 := rfl
  rw [Runs, hStep, h]
  rfl

theorem bind_iff {next : α → ExceptT ε (StateM σ) β} {r : Except ε β} :
    Runs (work >>= next) s r s'' ↔
      (∃ a s', Runs work s (.ok a) s' ∧ Runs (next a) s' r s'') ∨
        ∃ e, r = .error e ∧ Runs work s (.error e) s'' := by
  constructor
  · intro h
    obtain ⟨first, s', hFirst⟩ := exists_run work s
    cases first with
    | ok a =>
      obtain ⟨rest, t, hRest⟩ := exists_run (next a) s'
      obtain ⟨rfl, rfl⟩ := h.unique (hFirst.bind hRest)
      exact .inl ⟨a, s', hFirst, hRest⟩
    | error e =>
      obtain ⟨rfl, rfl⟩ := h.unique hFirst.bind_fail
      exact .inr ⟨e, rfl, hFirst⟩
  · rintro (⟨a, s', hFirst, hNext⟩ | ⟨e, rfl, hFirst⟩)
    · exact hFirst.bind hNext
    · exact hFirst.bind_fail

theorem map {r : Except ε α} (f : α → β) (h : Runs work s r s') : Runs (f <$> work) s (f <$> r) s' := by
  rw [map_eq_pure_bind]
  cases r with
  | ok a => exact h.bind (ret (f a) s')
  | error e => exact h.bind_fail

theorem lift {γ : Type} (access : StateM σ γ) {c : γ} (h : access.run s = (c, s')) :
    Runs (ExceptT.lift access : ExceptT ε (StateM σ) γ) s (.ok c) s' := by
  have hStep : (ExceptT.lift access : ExceptT ε (StateM σ) γ).run.run s =
      (.ok (access.run s).1, (access.run s).2) := rfl
  rw [Runs, hStep, h]

theorem state (s : σ) : Runs (get : ExceptT ε (StateM σ) σ) s (.ok s) s := rfl

theorem put (t s : σ) : Runs (set t : ExceptT ε (StateM σ) PUnit) s (.ok ⟨⟩) t := rfl

theorem alter (f : σ → σ) (s : σ) : Runs (modify f : ExceptT ε (StateM σ) PUnit) s (.ok ⟨⟩) (f s) := rfl

theorem of_get {next : σ → ExceptT ε (StateM σ) β} {r : Except ε β} (h : Runs (get >>= next) s r s') :
    Runs (next s) s r s' := h

theorem of_alter {f : σ → σ} {next : PUnit → ExceptT ε (StateM σ) β} {r : Except ε β}
    (h : Runs (modify f >>= next) s r s') : Runs (next ⟨⟩) (f s) r s' := h

/-- What fails at once does not come to a result. -/
theorem not_of_throw {e : ε} {next : α → ExceptT ε (StateM σ) β} {b : β} : ¬ Runs (throw e >>= next) s (.ok b) s' := by
  intro h
  cases (h.unique (.bind_fail (.fail e s))).1

theorem catch_ok {rescue : ε → ExceptT ε (StateM σ) α} {a : α} (h : Runs work s (.ok a) s') :
    Runs (tryCatch work rescue) s (.ok a) s' := by
  have hStep : (tryCatch work rescue).run.run s =
      (match (work.run.run s).1 with
        | .ok a => (pure (.ok a) : StateM σ (Except ε α))
        | .error e => (rescue e).run).run (work.run.run s).2 := rfl
  rw [Runs, hStep, h]
  rfl

theorem catch_error {rescue : ε → ExceptT ε (StateM σ) α} {e : ε} {r : Except ε α}
    (h : Runs work s (.error e) s') (hRescue : Runs (rescue e) s' r s'') :
    Runs (tryCatch work rescue) s r s'' := by
  have hStep : (tryCatch work rescue).run.run s =
      (match (work.run.run s).1 with
        | .ok a => (pure (.ok a) : StateM σ (Except ε α))
        | .error e => (rescue e).run).run (work.run.run s).2 := rfl
  rw [Runs, hStep, h]
  exact hRescue

end Runs

/-- Whatever the work comes to, the state that it leaves is so related to the one that it began in. -/
def Moves {ε σ α : Type} (R : σ → σ → Prop) (work : ExceptT ε (StateM σ) α) : Prop :=
  ∀ s result s', Runs work s result s' → R s s'

namespace Moves

variable {ε σ α β : Type} {R : σ → σ → Prop} {work : ExceptT ε (StateM σ) α}

theorem of_runs (h : ∀ s, ∃ result s', Runs work s result s' ∧ R s s') : Moves R work := by
  intro s result s' hRun
  obtain ⟨known, t, hKnown, hRelated⟩ := h s
  obtain ⟨-, rfl⟩ := hRun.unique hKnown
  exact hRelated

theorem map (f : α → β) (h : Moves R work) : Moves R (f <$> work) := by
  refine of_runs fun s => ?_
  obtain ⟨r, t, hRun⟩ := Runs.exists_run work s
  exact ⟨_, t, hRun.map f, h _ _ _ hRun⟩

section Preorder

variable (hRefl : ∀ s, R s s) (hTrans : ∀ s t u, R s t → R t u → R s u)

include hRefl in
theorem ret (a : α) : Moves R (pure a : ExceptT ε (StateM σ) α) := of_runs fun s => ⟨_, s, .ret a s, hRefl s⟩

include hRefl in
theorem ofExcept (r : Except ε α) : Moves R (liftM r : ExceptT ε (StateM σ) α) :=
  of_runs fun s => ⟨r, s, .ofExcept r s, hRefl s⟩

include hTrans in
theorem bind {next : α → ExceptT ε (StateM σ) β} (h : Moves R work) (hNext : ∀ a, Moves R (next a)) :
    Moves R (work >>= next) := by
  intro s result u hRun
  obtain ⟨a, t, hFirst, hRest⟩ | ⟨e, -, hFirst⟩ := Runs.bind_iff.mp hRun
  · exact hTrans s t u (h _ _ _ hFirst) (hNext a _ _ _ hRest)
  · exact h _ _ _ hFirst

include hRefl hTrans

theorem mapM {f : α → ExceptT ε (StateM σ) β} (h : ∀ a, Moves R (f a)) (xs : List α) : Moves R (xs.mapM f) := by
  induction xs with
  | nil =>
    rw [List.mapM_nil]
    exact ret hRefl []
  | cons x rest ih =>
    rw [List.mapM_cons]
    exact bind hTrans (h x) fun b => bind hTrans ih fun bs => ret hRefl _

theorem forM {f : α → ExceptT ε (StateM σ) PUnit} (h : ∀ a, Moves R (f a)) (xs : List α) : Moves R (xs.forM f) := by
  induction xs with
  | nil => exact ret hRefl _
  | cons x rest ih => exact bind hTrans (h x) fun _ => ih

end Preorder

end Moves

end RecordCache
