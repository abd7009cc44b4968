import Mathlib.Data.List.Forall2
import Mathlib.Logic.Relation
import RecordCache.Client.Fetching
import RecordCache.Proofs.Assoc
import RecordCache.Proofs.Runs

/-!
# Populations of one store under any schedule

Callers come at any time, each with a fetch of its own and, perhaps, a callback. Who finds nobody at it starts a
flight and runs it; who comes while a flight is open boards it. A step is what happens without letting others in:
between the arrivals, the end of the fetch, the swap, the release of the passengers and each callback anything else
may happen. A passenger belongs to one flight from the start, and a flight has one stage after the other, so that it
fetches and swaps once.
-/

namespace RecordCache

structure Passenger (κ : Type) where
  callback : Option κ
  /-- What the call has returned. -/
  answer : Option (Except Error (List Record)) := none

namespace Flight

inductive Outcome
  | unfetched (e : Error)
  /-- With what the swap came to. -/
  | stored (records : List Record) (swap : Except Error Unit)

namespace Outcome

/-- What the fetch itself has come to. -/
def fetched : Outcome → Except Error (List Record)
  | unfetched e => .error e
  | stored records _ => .ok records

/-- What everybody on board is given. -/
def result : Outcome → Except Error (List Record)
  | unfetched e => .error e
  | stored records swap => swap.map fun _ => records

def swapped? : Outcome → Option (List Record)
  | unfetched _ => none
  | stored records _ => some records

end Outcome

inductive Stage
  | fetching
  | fetched (records : List Record)
  | settled (o : Outcome)
  /-- Nobody can board it any more. -/
  | closed (o : Outcome)
  /-- Those who have boarded it may go on. -/
  | landed (o : Outcome)

namespace Stage

def isOpen : Stage → Bool
  | fetching | fetched _ | settled _ => true
  | closed _ | landed _ => false

def outcome? : Stage → Option Outcome
  | fetching | fetched _ => none
  | settled o | closed o | landed o => some o

end Stage

end Flight

structure Flight (κ : Type) where
  /-- The one whose fetch runs. -/
  runner : Passenger κ
  joined : List (Passenger κ) := []
  stage : Flight.Stage := .fetching
  /-- How many callbacks were called. -/
  told : Nat := 0

structure Flights (κ α : Type) where
  session : Session κ α
  flights : List (Flight κ) := []

/-- What is looked at: the store, the log that the application keeps of what callbacks are given, and what others do
to the disk. -/
structure Scene (κ α : Type) where
  ref : StoreRef
  log : α → List (κ × Except Error (List Record))
  others : Disk → Disk → Prop

variable {κ α : Type}

namespace Flight

def passengers (f : Flight κ) : List (Passenger κ) := f.runner :: f.joined

def callbacks (f : Flight κ) : List κ := f.passengers.filterMap (·.callback)

def board (f : Flight κ) (callback : Option κ) : Flight κ := { f with joined := f.joined ++ [{ callback }] }

/-- What the callbacks were given. -/
def given (f : Flight κ) : List (κ × Except Error (List Record)) :=
  match f.stage.outcome? with
  | some o => (f.callbacks.take f.told).map fun c => (c, o.result)
  | none => []

def swapped? (f : Flight κ) : Option (List Record) := f.stage.outcome?.bind Outcome.swapped?

/-- What happens to a flight by itself. -/
inductive Step : Flight κ → Flight κ → Prop
  | fetch {f : Flight κ} (records : List Record) (hStage : f.stage = .fetching) :
      Step f { f with stage := .fetched records }
  | fail {f : Flight κ} (e : Error) (hStage : f.stage = .fetching) :
      Step f { f with stage := .settled (.unfetched e) }
  | land {f : Flight κ} {o : Outcome} (hStage : f.stage = .closed o) : Step f { f with stage := .landed o }
  /-- The runner returns behind the last callback. -/
  | finish {f : Flight κ} {o : Outcome} (hStage : f.stage = .landed o) (hTold : f.told = f.callbacks.length) :
      Step f { f with runner := { f.runner with answer := some o.result } }
  | wake {f : Flight κ} {o : Outcome} {before after : List (Passenger κ)} {p : Passenger κ}
      (hStage : f.stage = .landed o) (hJoined : f.joined = before ++ p :: after) :
      Step f { f with joined := before ++ { p with answer := some o.result } :: after }

end Flight

/-- What goes on beside the populations of the store. Of the application only the outcomes that callbacks were given
matter, as it logs them. -/
structure Session.Proceeds (scene : Scene κ α) (given : List (κ × Except Error (List Record)))
    (s s' : Session κ α) : Prop where
  populations : s'.populations.get? scene.ref.number = s.populations.get? scene.ref.number
  disk : Relation.ReflTransGen scene.others s.disk s'.disk
  given : scene.log s'.app = scene.log s.app ++ given

/-- The disk changes by what others do, and by the swap of each of the lists in turn. -/
inductive LocalStore.Swaps (store : LocalStore) (others : Disk → Disk → Prop) : List (List Record) → Disk → Disk → Prop
  | none {d d' : Disk} (hOthers : Relation.ReflTransGen others d d') : Swaps store others [] d d'
  | swap {d d₁ d₂ d' : Disk} {records : List Record} {r : Except Error Unit} {rest : List (List Record)}
      (hOthers : Relation.ReflTransGen others d d₁) (hSwap : Runs (store.swap records) d₁ r d₂)
      (hRest : Swaps store others rest d₂ d') : Swaps store others (records :: rest) d d'

namespace Flights

def start (s : Session κ α) : Flights κ α := { session := s }

def population (t : Flights κ α) (scene : Scene κ α) : Population κ := t.session.populations.get? scene.ref.number

def withCallbacks (t : Flights κ α) (scene : Scene κ α) (callbacks : List κ) : Session κ α :=
  { t.session with populations := t.session.populations.set scene.ref.number callbacks }

inductive Step (scene : Scene κ α) : Flights κ α → Flights κ α → Prop
  | start {t p} (callback : Option κ) (hArrive : (t.population scene).arrive callback = (true, p)) :
      Step scene t {
        session := t.withCallbacks scene (p.getD [])
        flights := t.flights ++ [{ runner := { callback } }] }
  | join {t p before f after} (callback : Option κ) (hArrive : (t.population scene).arrive callback = (false, p))
      (hFlights : t.flights = before ++ f :: after) (hOpen : f.stage.isOpen = true) :
      Step scene t {
        session := t.withCallbacks scene (p.getD [])
        flights := before ++ f.board callback :: after }
  | alone {t before f f' after} (hFlights : t.flights = before ++ f :: after) (hStep : f.Step f') :
      Step scene t { t with flights := before ++ f' :: after }
  | swap {t before f after records r disk} (hFlights : t.flights = before ++ f :: after)
      (hStage : f.stage = .fetched records) (hSwap : Runs (scene.ref.store.swap records) t.session.disk r disk) :
      Step scene t {
        session := { t.session with disk }
        flights := before ++ { f with stage := .settled (.stored records r) } :: after }
  | release {t before f after o} (hFlights : t.flights = before ++ f :: after) (hStage : f.stage = .settled o) :
      Step scene t {
        session := { t.session with populations := t.session.populations.erase scene.ref.number }
        flights := before ++ { f with stage := .closed o } :: after }
  | tell {t before f after o c s} (hFlights : t.flights = before ++ f :: after) (hStage : f.stage = .landed o)
      (hNext : f.callbacks[f.told]? = some c) (hTold : Session.Proceeds scene [(c, o.result)] t.session s) :
      Step scene t { session := s, flights := before ++ { f with told := f.told + 1 } :: after }
  /-- Anything else that goes on. -/
  | other {t s} (hProceeds : Session.Proceeds scene [] t.session s) : Step scene t { t with session := s }

abbrev Run (scene : Scene κ α) : Flights κ α → Flights κ α → Prop := Relation.ReflTransGen (Step scene)

/-! ### What holds between any two steps -/

/-- Nobody is told, and no call returns, before the flight has landed; the runner returns last. -/
structure Fair (f : Flight κ) : Prop where
  untold : (∀ o, f.stage ≠ .landed o) → f.told = 0
  told_le : f.told ≤ f.callbacks.length
  answered : ∀ p ∈ f.passengers, ∀ r, p.answer = some r → ∃ o, f.stage = .landed o ∧ r = o.result
  last : f.runner.answer.isSome → f.told = f.callbacks.length

/-- Each callback is called once, in the order in which they came aboard, with what their own flight came to. -/
structure Accounted (scene : Scene κ α) (t : Flights κ α) : Prop where
  fair : ∀ f ∈ t.flights, Fair f
  given : (scene.log t.session.app).Perm (t.flights.flatMap Flight.given)
  order : ∀ f ∈ t.flights, f.given.Sublist (scene.log t.session.app)

structure SingleFlight (scene : Scene κ α) (t : Flights κ α) : Prop where
  /-- Next to an open flight, such as one that fetches, there is no other. -/
  one : ∀ before f after, t.flights = before ++ f :: after → f.stage.isOpen = true →
    ∀ g ∈ before ++ after, g.stage.isOpen = false
  starts : ∀ callback, ((t.population scene).arrive callback).1 = true ↔ ∀ f ∈ t.flights, f.stage.isOpen = false

/-- The open flight is the one that is known, and the last that has started. -/
structure Marked (population : Population κ) (flights : List (Flight κ)) : Prop where
  known : (flights.filter (·.stage.isOpen)).map Flight.callbacks = population.toList
  last : flights.Pairwise fun f _ => f.stage.isOpen = false

structure Sound (scene : Scene κ α) (t : Flights κ α) : Prop where
  marked : Marked (t.population scene) t.flights
  accounted : t.Accounted scene

/-! ### One flight among the others -/

section Among

variable {population : Population κ} {before after flights : List (Flight κ)} {f f' : Flight κ}

namespace Marked

variable (h : Marked population (before ++ f :: after))

include h

theorem of_open (hOpen : f.stage.isOpen = true) :
    after = [] ∧ population = some f.callbacks ∧ ∀ g ∈ before, g.stage.isOpen = false := by
  obtain ⟨-, hRest, hBefore⟩ := List.pairwise_append.mp h.last
  have hClosed : ∀ g ∈ before, g.stage.isOpen = false := fun g hg => hBefore g hg f List.mem_cons_self
  have hAfter : after = [] := by
    refine List.eq_nil_iff_forall_not_mem.mpr fun g hg => ?_
    rw [List.rel_of_pairwise_cons hRest hg] at hOpen
    cases hOpen
  subst hAfter
  refine ⟨rfl, ?_, hClosed⟩
  have hNone : before.filter (·.stage.isOpen) = [] := List.filter_eq_nil_iff.mpr fun g hg => by simp [hClosed g hg]
  have hKnown := h.known
  rw [List.filter_append, hNone, List.filter_singleton, hOpen] at hKnown
  cases population with
  | none => cases hKnown
  | some callbacks => exact congrArg some (List.singleton_inj.mp hKnown).symm

theorem of_same (hOpen : f'.stage.isOpen = f.stage.isOpen) (hCallbacks : f'.callbacks = f.callbacks) :
    Marked population (before ++ f' :: after) where
  known := by
    rw [← h.known]
    cases hStage : f.stage.isOpen <;> simp [hOpen, hStage, hCallbacks]
  last := by
    have hSame : (before ++ f' :: after).map (·.stage.isOpen) = (before ++ f :: after).map (·.stage.isOpen) := by
      simp [hOpen]
    have hLast := List.pairwise_map (R := fun isOpen _ => isOpen = false) |>.mpr h.last
    rw [← hSame] at hLast
    exact List.pairwise_map.mp hLast

end Marked

theorem Marked.concat (hBefore : ∀ g ∈ before, g.stage.isOpen = false) (hOpen : f.stage.isOpen = true) :
    Marked (some f.callbacks) (before ++ [f]) where
  known := by
    rw [List.filter_append, List.filter_eq_nil_iff.mpr fun g hg => by simp [hBefore g hg], List.filter_singleton, hOpen]
    rfl
  last := by
    refine List.pairwise_append.mpr ⟨?_, List.pairwise_singleton _ _, fun g hg _ _ => hBefore g hg⟩
    exact List.pairwise_of_forall_mem_list fun g hg _ _ => hBefore g hg

theorem Marked.of_closed (hClosed : ∀ g ∈ flights, g.stage.isOpen = false) : Marked none flights where
  known := by
    rw [List.filter_eq_nil_iff.mpr fun g hg => by simp [hClosed g hg]]
    rfl
  last := List.pairwise_of_forall_mem_list fun g hg _ _ => hClosed g hg

theorem Marked.closed (h : Marked none flights) : ∀ g ∈ flights, g.stage.isOpen = false := by
  have hNone : flights.filter (·.stage.isOpen) = [] := List.map_eq_nil_iff.mp h.known
  exact fun g hg => Bool.eq_false_iff.mpr (List.filter_eq_nil_iff.mp hNone g hg)

/-- Where a flight stands among the others changes what callbacks were given in one place only. -/
theorem given_perm (x : List (κ × Except Error (List Record))) (hGiven : f'.given = f.given ++ x) :
    ((before ++ f :: after).flatMap Flight.given ++ x).Perm ((before ++ f' :: after).flatMap Flight.given) := by
  simp only [List.flatMap_append, List.flatMap_cons, hGiven, List.append_assoc]
  exact .append_left _ (.append_left _ List.perm_append_comm)

end Among

/-! ### One step -/

section Step

variable {f f' : Flight κ}

@[simp] theorem callbacks_board (f : Flight κ) (callback : Option κ) :
    (f.board callback).callbacks = f.callbacks ++ callback.toList := by
  rw [Flight.board, Flight.callbacks, Flight.passengers, ← List.cons_append, List.filterMap_append]
  cases callback <;> rfl

theorem given_of_untold (hTold : f.told = 0) : f.given = [] := by
  rw [Flight.given, hTold]
  cases f.stage.outcome? <;> rfl

theorem given_of_both_untold (hTold : f.told = 0) (hTold' : f'.told = 0) : f'.given = f.given ++ [] := by
  rw [given_of_untold hTold, given_of_untold hTold', List.append_nil]

theorem Fair.untold_of_open (h : Fair f) (hOpen : f.stage.isOpen = true) : f.told = 0 := by
  refine h.untold fun o hStage => ?_
  rw [hStage] at hOpen
  cases hOpen

/-- Before it lands nobody has been answered. -/
theorem Fair.unanswered (h : Fair f) (hStage : ∀ o, f.stage ≠ .landed o) : ∀ p ∈ f.passengers, p.answer = none := by
  intro p hp
  cases hAnswer : p.answer with
  | none => rfl
  | some r =>
    obtain ⟨o, hLanded, -⟩ := h.answered p hp r hAnswer
    exact absurd hLanded (hStage o)

/-- A flight goes on, and nobody lands by that. -/
theorem Fair.of_stage (h : Fair f) (hStage : ∀ o, f.stage ≠ .landed o) (stage : Flight.Stage) :
    Fair { f with stage } where
  untold _ := h.untold hStage
  told_le := h.told_le
  answered p hp r hAnswer := by
    rw [h.unanswered hStage p hp] at hAnswer
    cases hAnswer
  last hAnswer := by
    rw [h.unanswered hStage f.runner List.mem_cons_self] at hAnswer
    cases hAnswer

theorem Fair.board (h : Fair f) (hOpen : f.stage.isOpen = true) (callback : Option κ) : Fair (f.board callback) where
  untold _ := h.untold_of_open hOpen
  told_le := by
    rw [callbacks_board, List.length_append]
    exact Nat.le_add_right_of_le h.told_le
  answered p hp r hAnswer := by
    rw [Flight.board, Flight.passengers, ← List.cons_append, List.mem_append, List.mem_singleton] at hp
    obtain hp | rfl := hp
    · exact h.answered p hp r hAnswer
    · cases hAnswer
  last hAnswer := by
    have hNone : f.runner.answer = none :=
      h.unanswered (fun o hStage => by rw [hStage] at hOpen; cases hOpen) _ List.mem_cons_self
    rw [show (f.board callback).runner = f.runner from rfl, hNone] at hAnswer
    cases hAnswer

/-- What happens to a flight by itself neither opens nor closes it, and gives nothing to anybody's callback. -/
structure Alike (f f' : Flight κ) : Prop where
  isOpen : f'.stage.isOpen = f.stage.isOpen
  callbacks : f'.callbacks = f.callbacks
  given : f'.given = f.given
  swapped? : f'.swapped? = f.swapped?

theorem Fair.step (h : Fair f) (hStep : f.Step f') : Fair f' ∧ Alike f f' := by
  cases hStep with
  | fetch records hStage =>
    refine ⟨h.of_stage (by simp [hStage]) _, by simp [hStage, Flight.Stage.isOpen], rfl, ?_, ?_⟩
    · simp [Flight.given, hStage, Flight.Stage.outcome?]
    · simp [Flight.swapped?, hStage, Flight.Stage.outcome?]
  | fail e hStage =>
    have hTold : f.told = 0 := h.untold_of_open (by simp [hStage, Flight.Stage.isOpen])
    refine ⟨h.of_stage (by simp [hStage]) _, by simp [hStage, Flight.Stage.isOpen], rfl, ?_, ?_⟩
    · rw [given_of_untold hTold]
      exact given_of_untold hTold
    · simp [Flight.swapped?, hStage, Flight.Stage.outcome?, Flight.Outcome.swapped?]
  | @land o hStage =>
    refine ⟨h.of_stage (by simp [hStage]) _, by simp [hStage, Flight.Stage.isOpen], rfl, ?_, ?_⟩
    · simp [Flight.given, hStage, Flight.Stage.outcome?, Flight.callbacks, Flight.passengers]
    · simp [Flight.swapped?, hStage, Flight.Stage.outcome?]
  | @finish o hStage hTold =>
    refine ⟨⟨fun hNever => absurd hStage (hNever o), h.told_le, fun p hp r hAnswer => ?_, fun _ => hTold⟩,
      rfl, rfl, rfl, rfl⟩
    obtain rfl | hp := List.mem_cons.mp hp
    · exact ⟨o, hStage, (Option.some.inj hAnswer).symm⟩
    · exact h.answered p (List.mem_cons_of_mem _ hp) r hAnswer
  | @wake o before after q hStage hJoined =>
    have hCallbacks : Flight.callbacks { f with joined := before ++ { q with answer := some o.result } :: after } =
        f.callbacks := by
      simp [Flight.callbacks, Flight.passengers, hJoined, List.filterMap_cons]
    refine ⟨⟨fun hNever => absurd hStage (hNever o), ?_, fun p hp r hAnswer => ?_, ?_⟩, rfl, hCallbacks, ?_, rfl⟩
    · rw [hCallbacks]
      exact h.told_le
    · simp only [Flight.passengers, List.mem_cons, List.mem_append] at hp
      obtain hp | hp | rfl | hp := hp
      · exact h.answered p (by simp [Flight.passengers, hp]) r hAnswer
      · exact h.answered p (by simp [Flight.passengers, hJoined, hp]) r hAnswer
      · exact ⟨o, hStage, (Option.some.inj hAnswer).symm⟩
      · exact h.answered p (by simp [Flight.passengers, hJoined, hp]) r hAnswer
    · rw [hCallbacks]
      exact h.last
    · rw [Flight.given, Flight.given, hCallbacks]

end Step

section Run

variable {scene : Scene κ α} {s : Session κ α} {t t' : Flights κ α} {before after : List (Flight κ)} {f f' : Flight κ}

theorem Accounted.replace (h : t.Accounted scene) (hFlights : t.flights = before ++ f :: after) (hFair : Fair f')
    {x : List (κ × Except Error (List Record))} (hGiven : f'.given = f.given ++ x)
    (hLog : scene.log s.app = scene.log t.session.app ++ x) : Accounted scene ⟨s, before ++ f' :: after⟩ where
  fair g hg := by
    obtain hg | rfl | hg := by simpa using hg
    · exact h.fair g (by simp [hFlights, hg])
    · exact hFair
    · exact h.fair g (by simp [hFlights, hg])
  given := by
    have hBefore := h.given
    rw [hFlights] at hBefore
    rw [hLog]
    exact (hBefore.append_right x).trans (given_perm x hGiven)
  order g hg := by
    rw [hLog]
    obtain hg | rfl | hg := by simpa using hg
    · exact (h.order g (by simp [hFlights, hg])).trans (List.sublist_append_left _ _)
    · rw [hGiven]
      exact (h.order f (by simp [hFlights])).append_right x
    · exact (h.order g (by simp [hFlights, hg])).trans (List.sublist_append_left _ _)

theorem arrive_eq {population p : Population κ} {callback : Option κ} {first : Bool}
    (h : population.arrive callback = (first, p)) :
    population.isNone = first ∧ p.getD [] = population.getD [] ++ callback.toList := by
  cases h
  exact ⟨rfl, rfl⟩

theorem population_withCallbacks (t : Flights κ α) (scene : Scene κ α) (callbacks : List κ)
    (flights : List (Flight κ)) : population ⟨t.withCallbacks scene callbacks, flights⟩ scene = some callbacks := by
  rw [population, withCallbacks, Assoc.get?_set, if_pos rfl]

theorem Sound.start (hNone : s.populations.get? scene.ref.number = none) (hLog : scene.log s.app = []) :
    Sound scene { session := s } where
  marked := by
    rw [population, hNone]
    exact .of_closed (List.forall_mem_nil _)
  accounted := by
    refine ⟨List.forall_mem_nil _, ?_, List.forall_mem_nil _⟩
    rw [hLog, List.flatMap_nil]

theorem Sound.replace (h : Sound scene t) (hFlights : t.flights = before ++ f :: after) (hFair : Fair f')
    (hOpen : f'.stage.isOpen = f.stage.isOpen) (hCallbacks : f'.callbacks = f.callbacks)
    {x : List (κ × Except Error (List Record))} (hGiven : f'.given = f.given ++ x)
    (hPopulations : s.populations.get? scene.ref.number = t.session.populations.get? scene.ref.number)
    (hLog : scene.log s.app = scene.log t.session.app ++ x) : Sound scene ⟨s, before ++ f' :: after⟩ where
  marked := by
    have hMarked := h.marked
    rw [hFlights] at hMarked
    rw [population, hPopulations]
    exact hMarked.of_same hOpen hCallbacks
  accounted := h.accounted.replace hFlights hFair hGiven hLog

theorem Sound.started (h : Sound scene t) (hNobody : t.population scene = none) (callback : Option κ) :
    Sound scene ⟨t.withCallbacks scene callback.toList, t.flights ++ [{ runner := { callback } }]⟩ where
  marked := by
    have hMarked := h.marked
    rw [hNobody] at hMarked
    have hNew : callback.toList = Flight.callbacks { runner := { callback } } := by cases callback <;> rfl
    rw [population_withCallbacks, hNew]
    exact .concat hMarked.closed rfl
  accounted := by
    have hAccounted := h.accounted
    refine ⟨fun g hg => ?_, ?_, fun g hg => ?_⟩
    · obtain hg | rfl := by simpa using hg
      · exact hAccounted.fair g hg
      · exact ⟨fun _ => rfl, Nat.zero_le _, by simp [Flight.passengers], nofun⟩
    · simpa [Flight.given, Flight.Stage.outcome?, withCallbacks] using hAccounted.given
    · obtain hg | rfl := by simpa using hg
      · exact hAccounted.order g hg
      · exact List.nil_sublist _

theorem Sound.boarded (h : Sound scene t) (hFlights : t.flights = before ++ f :: after)
    (hOpen : f.stage.isOpen = true) (callback : Option κ) :
    Sound scene
      ⟨t.withCallbacks scene ((t.population scene).getD [] ++ callback.toList),
        before ++ f.board callback :: after⟩ where
  marked := by
    have hMarked := h.marked
    rw [hFlights] at hMarked
    obtain ⟨rfl, hKnown, hClosed⟩ := hMarked.of_open hOpen
    rw [population_withCallbacks, hKnown, Option.getD_some, ← callbacks_board]
    exact .concat hClosed hOpen
  accounted := by
    have hFair := h.accounted.fair f (by simp [hFlights])
    have hTold := hFair.untold_of_open hOpen
    exact h.accounted.replace hFlights (hFair.board hOpen callback) (given_of_both_untold hTold hTold)
      (List.append_nil _).symm

theorem Sound.released (h : Sound scene t) (hFlights : t.flights = before ++ f :: after) {o : Flight.Outcome}
    (hStage : f.stage = .settled o) :
    Sound scene
      ⟨{ t.session with populations := t.session.populations.erase scene.ref.number },
        before ++ { f with stage := .closed o } :: after⟩ where
  marked := by
    have hMarked := h.marked
    rw [hFlights] at hMarked
    obtain ⟨rfl, -, hClosed⟩ := hMarked.of_open (by rw [hStage]; rfl)
    rw [population, Assoc.get?_erase, if_pos rfl]
    refine .of_closed fun g hg => ?_
    obtain hg | rfl := by simpa using hg
    · exact hClosed g hg
    · rfl
  accounted := by
    have hFair := h.accounted.fair f (by simp [hFlights])
    have hTold : f.told = 0 := hFair.untold_of_open (by rw [hStage]; rfl)
    exact h.accounted.replace hFlights (hFair.of_stage (by simp [hStage]) _) (given_of_both_untold hTold hTold)
      (List.append_nil _).symm

theorem given_told {o : Flight.Outcome} {c : κ} (hStage : f.stage = .landed o) (hNext : f.callbacks[f.told]? = some c) :
    Flight.given { f with told := f.told + 1 } = f.given ++ [(c, o.result)] := by
  have hTake : f.callbacks.take (f.told + 1) = f.callbacks.take f.told ++ [c] := by
    rw [List.take_add_one, hNext]
    rfl
  have hNow : Flight.given { f with told := f.told + 1 } =
      (f.callbacks.take (f.told + 1)).map fun c => (c, o.result) := by
    obtain ⟨runner, joined, stage, told⟩ := f
    subst hStage
    rfl
  have hBefore : f.given = (f.callbacks.take f.told).map fun c => (c, o.result) := by
    rw [Flight.given, hStage]
    rfl
  rw [hNow, hTake, List.map_append, ← hBefore]
  rfl

theorem Fair.told {o : Flight.Outcome} {c : κ} (h : Fair f) (hStage : f.stage = .landed o)
    (hNext : f.callbacks[f.told]? = some c) : Fair { f with told := f.told + 1 } := by
  have hLt : f.told < f.callbacks.length := (List.getElem?_eq_some_iff.mp hNext).1
  refine ⟨fun hNever => absurd hStage (hNever o), hLt, h.answered, fun hReturned => ?_⟩
  rw [h.last hReturned] at hLt
  exact absurd hLt (Nat.lt_irrefl _)

theorem Sound.step (h : Sound scene t) (hStep : Step scene t t') : Sound scene t' := by
  cases hStep with
  | start callback hArrive =>
    obtain ⟨hNobody, hCallbacks⟩ := arrive_eq hArrive
    rw [Option.isNone_iff_eq_none] at hNobody
    rw [hCallbacks, hNobody]
    exact h.started hNobody callback
  | join callback hArrive hFlights hOpen =>
    rw [(arrive_eq hArrive).2]
    exact h.boarded hFlights hOpen callback
  | @alone before f f' after hFlights hStep =>
    obtain ⟨hFair, hAlike⟩ := (h.accounted.fair f (by simp [hFlights])).step hStep
    have hGiven : f'.given = f.given ++ [] := by rw [List.append_nil, hAlike.given]
    exact h.replace hFlights hFair hAlike.isOpen hAlike.callbacks hGiven rfl (List.append_nil _).symm
  | @swap before f after records r disk hFlights hStage hSwap =>
    -- the outcome is there now, but nobody has been told yet
    have hFair := h.accounted.fair f (by simp [hFlights])
    have hTold : f.told = 0 := hFair.untold_of_open (by rw [hStage]; rfl)
    exact h.replace hFlights (hFair.of_stage (by simp [hStage]) _) (by rw [hStage]; rfl) rfl
      (given_of_both_untold hTold hTold) rfl (List.append_nil _).symm
  | release hFlights hStage => exact h.released hFlights hStage
  | @tell before f after o c s hFlights hStage hNext hTold =>
    have hFair := (h.accounted.fair f (by simp [hFlights])).told hStage hNext
    exact h.replace hFlights hFair rfl rfl (given_told hStage hNext) hTold.populations hTold.given
  | @other s hProceeds =>
    have hLog : scene.log s.app = scene.log t.session.app := hProceeds.given.trans (List.append_nil _)
    have hMarked := h.marked
    rw [population, ← hProceeds.populations] at hMarked
    refine ⟨hMarked, h.accounted.fair, ?_, ?_⟩
    · rw [hLog]
      exact h.accounted.given
    · rw [hLog]
      exact h.accounted.order

theorem Sound.run (h : Sound scene t) (hRun : Run scene t t') : Sound scene t' := by
  induction hRun with
  | refl => exact h
  | tail _ hStep ih => exact ih.step hStep

theorem Sound.singleFlight (h : Sound scene t) : t.SingleFlight scene where
  one before f after hFlights hOpen g hg := by
    have hMarked := h.marked
    rw [hFlights] at hMarked
    obtain ⟨rfl, -, hClosed⟩ := hMarked.of_open hOpen
    exact hClosed g (by simpa using hg)
  starts callback := by
    have hMarked := h.marked
    rw [Population.arrive, Option.isNone_iff_eq_none]
    constructor
    · intro hNone
      rw [hNone] at hMarked
      exact hMarked.closed
    · intro hClosed
      have hKnown := hMarked.known
      rw [List.filter_eq_nil_iff.mpr fun f hf => by simp [hClosed f hf]] at hKnown
      exact Option.toList_eq_nil_iff.mp hKnown.symm

/-! ### What becomes of the disk -/

theorem swaps_trans {store : LocalStore} {others : Disk → Disk → Prop} {first rest : List (List Record)}
    {d d' d'' : Disk} (h : store.Swaps others first d d') (hRest : store.Swaps others rest d' d'') :
    store.Swaps others (first ++ rest) d d'' := by
  induction h with
  | none hOthers =>
    cases hRest with
    | none hMore => exact .none (hOthers.trans hMore)
    | swap hMore hSwap hLater => exact .swap (hOthers.trans hMore) hSwap hLater
  | swap hOthers hSwap _ ih => exact .swap hOthers hSwap (ih hRest)

/-- Between the two states the flights have swapped in what they have fetched, in their order; nothing but that and
what others did has happened to the disk. -/
def SwapsOnly (scene : Scene κ α) (t t' : Flights κ α) : Prop :=
  ∃ more, t'.flights.filterMap Flight.swapped? = t.flights.filterMap Flight.swapped? ++ more ∧
    scene.ref.store.Swaps scene.others more t.session.disk t'.session.disk

/-- Where no fetch has brought anything, the disk is left to the others. -/
theorem SwapsOnly.untouched (h : SwapsOnly scene t t')
    (hFailed : t'.flights.filterMap Flight.swapped? = t.flights.filterMap Flight.swapped?) :
    Relation.ReflTransGen scene.others t.session.disk t'.session.disk := by
  obtain ⟨more, hMore, hDisk⟩ := h
  rw [hFailed, List.self_eq_append_right] at hMore
  subst hMore
  cases hDisk with
  | none hOthers => exact hOthers

theorem SwapsOnly.of_same (hSwapped : t'.flights.filterMap Flight.swapped? = t.flights.filterMap Flight.swapped?)
    (hDisk : Relation.ReflTransGen scene.others t.session.disk t'.session.disk) : SwapsOnly scene t t' :=
  ⟨[], by rw [hSwapped, List.append_nil], .none hDisk⟩

theorem swapped_replace (hFlights : t.flights = before ++ f :: after) (hSwapped : f'.swapped? = f.swapped?) :
    (before ++ f' :: after).filterMap Flight.swapped? = t.flights.filterMap Flight.swapped? := by
  simp [hFlights, List.filterMap_cons, hSwapped]

theorem Sound.swapsOnly_step (h : Sound scene t) (hStep : Step scene t t') : SwapsOnly scene t t' := by
  cases hStep with
  | start callback hArrive => exact .of_same (by simp [Flight.swapped?, Flight.Stage.outcome?]) .refl
  | join callback hArrive hFlights hOpen => exact .of_same (swapped_replace hFlights rfl) .refl
  | @alone before f f' after hFlights hStep =>
    have hAlike := ((h.accounted.fair f (by simp [hFlights])).step hStep).2
    exact .of_same (swapped_replace hFlights hAlike.swapped?) .refl
  | @swap before f after records r disk hFlights hStage hSwap =>
    have hMarked := h.marked
    rw [hFlights] at hMarked
    obtain ⟨rfl, -, -⟩ := hMarked.of_open (by rw [hStage]; rfl)
    refine ⟨[records], ?_, .swap .refl hSwap (.none .refl)⟩
    simp [hFlights, Flight.swapped?, hStage, Flight.Stage.outcome?, Flight.Outcome.swapped?]
  | @release before f after o hFlights hStage =>
    refine .of_same (swapped_replace hFlights ?_) .refl
    rw [Flight.swapped?, Flight.swapped?, hStage]
    rfl
  | tell hFlights hStage hNext hTold => exact .of_same (swapped_replace hFlights rfl) hTold.disk
  | other hProceeds => exact .of_same rfl hProceeds.disk

theorem Sound.swapsOnly (h : Sound scene t) (hRun : Run scene t t') : SwapsOnly scene t t' := by
  induction hRun with
  | refl => exact .of_same rfl .refl
  | tail hSoFar hStep ih =>
    obtain ⟨first, hFirst, hDisk⟩ := ih
    obtain ⟨rest, hRest, hMore⟩ := (h.run hSoFar).swapsOnly_step hStep
    exact ⟨first ++ rest, by rw [hRest, hFirst, List.append_assoc], swaps_trans hDisk hMore⟩

end Run

end Flights

end RecordCache
