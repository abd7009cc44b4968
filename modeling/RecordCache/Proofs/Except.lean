import Mathlib.Data.List.Forall2

/-!
# Results and failures

When a computation that may fail returns a result.
-/

namespace Except

variable {ε ε' α β : Type}

theorem map_eq_ok {f : α → β} {x : Except ε α} {b : β} : f <$> x = .ok b ↔ ∃ a, x = .ok a ∧ f a = b := by
  cases x with
  | error e => simp [Functor.map, Except.map]
  | ok a => simp [Functor.map, Except.map]

theorem bind_eq_ok {x : Except ε α} {f : α → Except ε β} {b : β} :
    x >>= f = .ok b ↔ ∃ a, x = .ok a ∧ f a = .ok b := by
  cases x with
  | error e => simp [bind, Except.bind]
  | ok a => simp [bind, Except.bind]

theorem mapM_eq_ok {f : α → Except ε β} {xs : List α} {ys : List β} :
    xs.mapM f = .ok ys ↔ List.Forall₂ (fun x y => f x = .ok y) xs ys := by
  induction xs generalizing ys with
  | nil =>
    rw [List.mapM_nil]
    cases ys <;> simp [pure, Except.pure]
  | cons x xs ih =>
    rw [List.mapM_cons, bind_eq_ok]
    constructor
    · rintro ⟨y, hy, hBind⟩
      obtain ⟨rest, hRest, hEnd⟩ := bind_eq_ok.mp hBind
      cases hEnd
      exact .cons hy (ih.mp hRest)
    · intro h
      cases h with
      | cons hy hRest => exact ⟨_, hy, bind_eq_ok.mpr ⟨_, ih.mpr hRest, rfl⟩⟩

theorem mem_of_mapM_eq_ok {f : α → Except ε β} {xs : List α} {ys : List β} (h : xs.mapM f = .ok ys) (y : β) :
    y ∈ ys ↔ ∃ x ∈ xs, f x = .ok y := by
  induction mapM_eq_ok.mp h with
  | nil => simp
  | @cons x y' xs ys hFirst hRest ih =>
    rw [List.mem_cons, ih (mapM_eq_ok.mpr hRest), List.exists_mem_cons_iff, hFirst, Except.ok.injEq, eq_comm]

theorem exists_mapM_eq_ok {f : α → Except ε β} {xs : List α} (h : ∀ x ∈ xs, ∃ y, f x = .ok y) :
    ∃ ys, xs.mapM f = .ok ys := by
  induction xs with
  | nil => exact ⟨[], rfl⟩
  | cons x rest ih =>
    obtain ⟨y, hFirst⟩ := h x List.mem_cons_self
    obtain ⟨ys, hRest⟩ := ih fun x' hx' => h x' (List.mem_cons_of_mem _ hx')
    exact ⟨y :: ys, mapM_eq_ok.mpr (.cons hFirst (mapM_eq_ok.mp hRest))⟩

theorem mapError_eq_ok {ε' : Type} {f : ε → ε'} {x : Except ε α} {a : α} : x.mapError f = .ok a ↔ x = .ok a := by
  cases x <;> simp [Except.mapError]

theorem toOption_eq_some_iff {x : Except ε α} {a : α} : x.toOption = some a ↔ x = .ok a := by
  cases x <;> simp [Except.toOption]

theorem foldlM_eq_ok {f : β → α → Except ε β} {xs : List α} {start result : β} (h : xs.foldlM f start = .ok result)
    {x : α} (hx : x ∈ xs) : ∃ before after, f before x = .ok after := by
  induction xs generalizing start with
  | nil => cases hx
  | cons first rest ih =>
    rw [List.foldlM_cons, bind_eq_ok] at h
    obtain ⟨next, hNext, hRest⟩ := h
    rcases List.mem_cons.mp hx with rfl | hMem
    · exact ⟨_, _, hNext⟩
    · exact ih hRest hMem

theorem foldlM_eq_error {f : β → α → Except ε β} {xs : List α} {start : β} {e : ε}
    (h : xs.foldlM f start = .error e) : ∃ x ∈ xs, ∃ before, f before x = .error e := by
  induction xs generalizing start with
  | nil => cases h
  | cons first rest ih =>
    rw [List.foldlM_cons] at h
    cases hNext : f start first with
    | error e' =>
      rw [hNext] at h
      cases h
      exact ⟨first, List.mem_cons_self, _, hNext⟩
    | ok next =>
      rw [hNext] at h
      obtain ⟨x, hx, hFault⟩ := ih h
      exact ⟨x, List.mem_cons_of_mem _ hx, hFault⟩

end Except
