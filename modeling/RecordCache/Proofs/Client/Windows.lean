import RecordCache.Proofs.Client.SubQueries
import RecordCache.Proofs.LocalStore.Usable

/-!
# Windows

How long a query trusts the cache: for the time that it was told last, or else for the time that its class is
registered for. The store that it is given has just that window.
-/

namespace RecordCache

theorem Json.same_of_numeric {a b : Json} {m n : Number} (ha : a.numeric? = some m) (hb : b.numeric? = some n)
    (h : a.same b = true) : m.same n = true := by
  have hNumbers : sameScalar a b = m.same n := by
    cases a <;> cases ha <;> cases b <;> cases hb <;> rfl
  have hScalar : a.isScalar = true := by cases a <;> first | rfl | cases ha
  rwa [same_of_isScalar_left hScalar, hNumbers] at h

theorem LocalStore.within_of_numeric {s : LocalStore} {n : Number} (h : s.window.numeric? = some n) : s.Within n := by
  intro age
  rw [isStale, h]

/-- What a query trusts after the last thing that it was told; none if it was told nothing. -/
def Freshness.told (last : Option Json) : Freshness := last.elim .asRegistered Freshness.ofArgument

namespace Registry

variable {r r' : Registry} {className : String}

/-- The window that applies after the last thing that a query was told: that number, or else the window that the
class is registered for, unless it was told `false`. -/
def windowFor (r : Registry) (className : String) : Option Json → Option Json
  | some (.bool false) => none
  | none | some .null | some (.bool true) => r.windows.get? className
  | some e => some e

theorem windowFor_cases (r : Registry) (className : String) (last : Option Json) :
    (Freshness.told last = .never ∧ r.windowFor className last = none) ∨
      (Freshness.told last = .asRegistered ∧ r.windowFor className last = r.windows.get? className) ∨
      ∃ e, last = some e ∧ e.isNull = false ∧ Freshness.told last = .within e ∧ r.windowFor className last = some e := by
  match last with
  | none => exact .inr (.inl ⟨rfl, rfl⟩)
  | some .null => exact .inr (.inl ⟨rfl, rfl⟩)
  | some (.bool true) => exact .inr (.inl ⟨rfl, rfl⟩)
  | some (.bool false) => exact .inl ⟨rfl, rfl⟩
  | some (.number n) => exact .inr (.inr ⟨_, rfl, rfl, rfl, rfl⟩)
  | some (.string s) => exact .inr (.inr ⟨_, rfl, rfl, rfl, rfl⟩)
  | some (.array items) => exact .inr (.inr ⟨_, rfl, rfl, rfl, rfl⟩)
  | some (.object fields) => exact .inr (.inr ⟨_, rfl, rfl, rfl, rfl⟩)
  | some (.other thing parts) => exact .inr (.inr ⟨_, rfl, rfl, rfl, rfl⟩)

/-- Windows are numbers, and a store that is kept has the window of its class. -/
structure Consistent (r : Registry) : Prop where
  numbers : ∀ className window, r.windows.get? className = some window → window.numeric?.isSome
  kept : ∀ className ref, r.stores.get? className = some ref →
    ref.store.className = className ∧ r.windows.get? className = some ref.store.window

namespace Consistent

theorem empty (debounce : Json) : Consistent { debounce := debounce } :=
  ⟨fun _ _ h => (nomatch h), fun _ _ h => (nomatch h)⟩

/-- A class gets another window, or none, and its store is made anew when it is needed next. -/
theorem change (h : r.Consistent) {windows : Fields Json} (queues : Fields Nat)
    (hOthers : ∀ name, className ≠ name → windows.get? name = r.windows.get? name)
    (hOwn : ∀ window, windows.get? className = some window → window.numeric?.isSome) :
    Consistent { r with windows, stores := r.stores.erase className, queues } where
  numbers name window hWindow := by
    by_cases hName : className = name
    · exact hOwn window (hName ▸ hWindow)
    · exact h.numbers name window ((hOthers name hName).symm.trans hWindow)
  kept name ref hRef := by
    rw [Assoc.get?_erase] at hRef
    split at hRef
    · cases hRef
    · next hName =>
      obtain ⟨hClass, hWindow⟩ := h.kept name ref hRef
      exact ⟨hClass, (hOthers name hName).trans hWindow⟩

theorem register {window : Json} (h : r.Consistent) (hRegister : r.register className window = .ok r') :
    r'.Consistent := by
  rw [Registry.register] at hRegister
  cases hNull : window.isNull with
  | true =>
    rw [hNull] at hRegister
    cases hRegister
    refine h.change _ (fun name hName => ?_) fun found hFound => ?_
    · rw [if_pos rfl, Assoc.get?_erase, if_neg hName]
    · rw [if_pos rfl, Assoc.get?_erase, if_pos rfl] at hFound
      cases hFound
  | false =>
    rw [hNull] at hRegister
    obtain ⟨_, hChecked, hRegister⟩ := Except.bind_eq_ok.mp hRegister
    cases hRegister
    refine h.change _ (fun name hName => ?_) fun found hFound => ?_
    · rw [if_neg Bool.false_ne_true, Assoc.get?_set, if_neg hName]
    · rw [if_neg Bool.false_ne_true, Assoc.get?_set, if_pos rfl] at hFound
      cases hFound
      rw [checkWindow] at hChecked
      cases hNumeric : window.numeric? with
      | none =>
        rw [hNumeric] at hChecked
        cases hChecked
      | some n => rfl

theorem ownStore (h : r.Consistent) (className : String) :
    (r.ownStore className).2.Consistent ∧
      (r.ownStore className).1.map StoreRef.store = (r.windows.get? className).map (LocalStore.mk className) := by
  rw [Registry.ownStore]
  split
  · next hNone => exact ⟨h, by rw [hNone]; rfl⟩
  · next window ref hWindow hRef =>
    obtain ⟨hClass, hKept⟩ := h.kept className ref hRef
    rw [hKept]
    exact ⟨h, by rw [← hClass]; rfl⟩
  · next window hWindow hNone =>
    refine ⟨⟨h.numbers, fun name ref hRef => ?_⟩, by rw [hWindow]; rfl⟩
    simp only [newStore, Assoc.get?_set] at hRef
    split at hRef
    · next hName =>
      cases hRef
      subst hName
      exact ⟨rfl, hWindow⟩
    · exact h.kept name ref hRef

theorem tellsAge (h : r.Consistent) {own : StoreRef} (hOwn : (r.ownStore className).1 = some own) :
    own.store.TellsAge := by
  have hStore := (h.ownStore className).2
  rw [hOwn, Option.map_some] at hStore
  obtain ⟨window, hWindow, hSame⟩ := Option.map_eq_some_iff.mp hStore.symm
  refine LocalStore.tellsAge_of_numeric ?_
  rw [← hSame]
  exact h.numbers className window hWindow

theorem store (h : r.Consistent) (className : String) (window : Json) : (r.store className window).2.Consistent := by
  rw [Registry.store]
  split
  · exact (h.ownStore className).1
  · exact ⟨h.numbers, h.kept⟩

theorem store_within (h : r.Consistent) {last : Option Json}
    (hTold : ∀ e, last = some e → e = .null ∨ e.numeric?.isSome) {window : Json}
    (hWindow : r.windowFor className last = some window) :
    Freshness.told last ≠ .never ∧ ∃ ref n, (r.store className (Freshness.told last).json).1 = some ref ∧
      ref.store.className = className ∧ window.numeric? = some n ∧ ref.store.Within n := by
  have hOwn {registered : Json} (hRegistered : r.windows.get? className = some registered) :
      ∃ ref n, (r.ownStore className).1 = some ref ∧ ref.store.className = className ∧
        registered.numeric? = some n ∧ ref.store.Within n := by
    have hStore := (h.ownStore className).2
    rw [hRegistered, Option.map_some, Option.map_eq_some_iff] at hStore
    obtain ⟨ref, hRef, hStore⟩ := hStore
    obtain ⟨n, hNumber⟩ := Option.isSome_iff_exists.mp (h.numbers _ _ hRegistered)
    exact ⟨ref, n, hRef, by rw [hStore], hNumber, LocalStore.within_of_numeric (by rw [hStore]; exact hNumber)⟩
  rcases r.windowFor_cases className last with ⟨-, hNone⟩ | ⟨hFresh, hSame⟩ | ⟨e, hLast, hNull, hFresh, hSame⟩
  · rw [hNone] at hWindow
    cases hWindow
  · rw [hFresh]
    exact ⟨nofun, hOwn (hSame ▸ hWindow)⟩
  · obtain rfl := Option.some.inj (hSame.symm.trans hWindow)
    obtain ⟨n, hNumber⟩ := Option.isSome_iff_exists.mp
      ((hTold e hLast).resolve_left (by rintro rfl; cases hNull))
    rw [hFresh]
    refine ⟨nofun, ?_⟩
    rw [Freshness.json, Registry.store, hNull, Bool.false_or]
    split
    · next hAny =>
      -- The window is the one of the class, in this or another writing.
      cases hRegistered : r.windows.get? className with
      | none =>
        rw [hRegistered] at hAny
        cases hAny
      | some registered =>
        rw [hRegistered, Option.any_some] at hAny
        obtain ⟨ref, m, hRef, hClass, hOther, hWithin⟩ := hOwn hRegistered
        have hEqual := Json.same_of_numeric hNumber hOther hAny
        refine ⟨ref, n, hRef, hClass, hNumber, fun age => ?_⟩
        rw [hWithin age, (Number.less_congr hEqual (.float age)).1]
    · exact ⟨_, n, rfl, rfl, hNumber, LocalStore.within_of_numeric hNumber⟩

theorem store_none (h : r.Consistent) {last : Option Json} (hNone : r.windowFor className last = none)
    (hNever : Freshness.told last ≠ .never) : (r.store className (Freshness.told last).json).1 = none := by
  rcases r.windowFor_cases className last with ⟨hFresh, -⟩ | ⟨hFresh, hSame⟩ | ⟨e, -, -, -, hSame⟩
  · exact absurd hFresh hNever
  · have hStore := (h.ownStore className).2
    rw [← hSame, hNone, Option.map_none, Option.map_eq_none_iff] at hStore
    rw [hFresh]
    exact hStore
  · rw [hSame] at hNone
    cases hNone

end Consistent

end Registry

end RecordCache
