import Mathlib.Data.List.Perm.Basic
import RecordCache.Proofs.Except
import RecordCache.Value.Order

/-!
# Sorting keeps every element

Where every two elements compare, a sort returns, and gives the same elements in some order: so does each
of its parts, whatever the comparison says.
-/

namespace RecordCache

namespace StableSort

variable {α ε : Type} {before : α → α → Except ε Bool} {xs ys run : List α} {x last : α}

def Compares (before : α → α → Except ε Bool) (xs : List α) : Prop :=
  ∀ x ∈ xs, ∀ y ∈ xs, ∃ b, before x y = .ok b

theorem Compares.mono (h : Compares before ys) (hSubset : xs ⊆ ys) : Compares before xs :=
  fun x hx y hy => h x (hSubset hx) y (hSubset hy)

theorem fall_perm (h : Compares before (last :: xs)) (seen : List α) :
    ∃ run rest, fall before last seen xs = .ok (run, rest) ∧ run ≠ [] ∧
      (run ++ rest).Perm (seen ++ last :: xs) := by
  induction xs generalizing last seen with
  | nil =>
    refine ⟨last :: seen, [], rfl, List.cons_ne_nil _ _, ?_⟩
    simpa using (List.perm_append_singleton last seen).symm
  | cons x rest ih =>
    obtain ⟨b, hb⟩ := h x (by simp) last (by simp)
    cases b with
    | true =>
      obtain ⟨run, others, hFall, hRun, hPerm⟩ := ih (h.mono (List.subset_cons_self ..)) (last :: seen)
      refine ⟨run, others, ?_, hRun, hPerm.trans List.perm_middle.symm⟩
      rw [fall, hb]
      exact hFall
    | false =>
      refine ⟨last :: seen, x :: rest, ?_, List.cons_ne_nil _ _, List.perm_middle.symm⟩
      rw [fall, hb]
      rfl

theorem rise_perm (h : Compares before (last :: xs)) (seen : List α) :
    ∃ run rest, rise before last seen xs = .ok (run, rest) ∧ run ≠ [] ∧
      (run ++ rest).Perm (seen ++ last :: xs) := by
  have hReversed (rest : List α) : ((last :: seen).reverse ++ rest).Perm (seen ++ last :: rest) :=
    ((List.reverse_perm _).append_right rest).trans List.perm_middle.symm
  induction xs generalizing last seen with
  | nil => exact ⟨(last :: seen).reverse, [], rfl, by simp, hReversed []⟩
  | cons x rest ih =>
    obtain ⟨b, hb⟩ := h x (by simp) last (by simp)
    cases b with
    | true =>
      refine ⟨(last :: seen).reverse, x :: rest, ?_, by simp, hReversed _⟩
      rw [rise, hb]
      rfl
    | false =>
      obtain ⟨run, others, hRise, hRun, hPerm⟩ := ih (h.mono (List.subset_cons_self ..)) (last :: seen)
        fun rest => ((List.reverse_perm _).append_right rest).trans List.perm_middle.symm
      refine ⟨run, others, ?_, hRun, hPerm.trans List.perm_middle.symm⟩
      rw [rise, hb]
      exact hRise

theorem firstRun_perm (h : Compares before xs) (hSome : xs ≠ []) :
    ∃ run rest, firstRun before xs = .ok (run, rest) ∧ run ≠ [] ∧ (run ++ rest).Perm xs := by
  match xs with
  | [] => exact absurd rfl hSome
  | [x] => exact ⟨[x], [], rfl, by simp, .refl _⟩
  | x :: y :: rest =>
    obtain ⟨b, hb⟩ := h y (by simp) x (by simp)
    have hTail := h.mono (List.subset_cons_self x (y :: rest))
    rw [firstRun, hb]
    cases b with
    | true => exact fall_perm hTail [x]
    | false => exact rise_perm hTail [x]

/-! ### Inserting -/

theorem placeFor_returns (h : ∀ y ∈ run, ∃ b, before x y = .ok b) (fuel low high : Nat) :
    ∃ place, placeFor before x run fuel low high = .ok place := by
  induction fuel generalizing low high with
  | zero => exact ⟨low, rfl⟩
  | succ fuel ih =>
    rw [placeFor]
    split
    · exact ⟨low, rfl⟩
    · cases hMiddle : run[low + (high - low) / 2]? with
      | none => exact ⟨low, by simp only [hMiddle]; rfl⟩
      | some y =>
        obtain ⟨b, hb⟩ := h y (List.mem_of_getElem? hMiddle)
        simp only [hMiddle, hb]
        cases b with
        | true => exact ih _ _
        | false => exact ih _ _

theorem insert_perm (h : ∀ y ∈ run, ∃ b, before x y = .ok b) :
    ∃ longer, insert before run x = .ok longer ∧ longer.Perm (run ++ [x]) := by
  obtain ⟨place, hPlace⟩ := placeFor_returns h (run.length + 1) 0 run.length
  refine ⟨run.take place ++ x :: run.drop place, ?_, ?_⟩
  · rw [insert, hPlace]
    rfl
  · calc (run.take place ++ x :: run.drop place).Perm
          (x :: (run.take place ++ run.drop place)) := List.perm_middle
      _ = x :: run := by rw [List.take_append_drop]
      (x :: run).Perm (run ++ [x]) := (List.perm_append_singleton x run).symm

theorem insertAll_perm (h : Compares before (run ++ xs)) :
    ∃ longer, xs.foldlM (insert before) run = .ok longer ∧ longer.Perm (run ++ xs) := by
  induction xs generalizing run with
  | nil => exact ⟨run, rfl, by simp⟩
  | cons x rest ih =>
    have hRun : ∀ y ∈ run, ∃ b, before x y = .ok b := fun y hy => h x (by simp) y (by simp [hy])
    obtain ⟨next, hNext, hPerm⟩ := insert_perm hRun
    have hAll : (next ++ rest).Perm (run ++ x :: rest) := by simpa using hPerm.append_right rest
    obtain ⟨longer, hLonger, hEnd⟩ := ih (h.mono hAll.subset)
    refine ⟨longer, ?_, hEnd.trans hAll⟩
    rw [List.foldlM_cons, hNext]
    exact hLonger

/-! ### Runs and merges -/

theorem merge_perm (fuel : Nat) (h : Compares before (xs ++ ys)) :
    ∃ merged, merge before fuel xs ys = .ok merged ∧ merged.Perm (xs ++ ys) := by
  induction fuel generalizing xs ys with
  | zero => exact ⟨_, rfl, .refl _⟩
  | succ fuel ih =>
    match xs, ys with
    | [], ys => exact ⟨ys, rfl, .refl _⟩
    | x :: xs, [] => exact ⟨x :: xs, rfl, by simp⟩
    | x :: xs, y :: ys =>
      obtain ⟨b, hb⟩ := h y (by simp) x (by simp)
      rw [merge, hb]
      cases b with
      | true =>
        have hRest : Compares before (x :: xs ++ ys) :=
          h.mono (List.Subset.trans (List.subset_cons_self y _) List.perm_middle.symm.subset)
        obtain ⟨merged, hMerged, hPerm⟩ := ih hRest
        refine ⟨y :: merged, ?_, (hPerm.cons y).trans List.perm_middle.symm⟩
        change (do return y :: (← merge before fuel (x :: xs) ys)) = _
        rw [hMerged]
        rfl
      | false =>
        have hRest : Compares before (xs ++ y :: ys) := h.mono (List.subset_cons_self x _)
        obtain ⟨merged, hMerged, hPerm⟩ := ih hRest
        refine ⟨x :: merged, ?_, hPerm.cons x⟩
        change (do return x :: (← merge before fuel xs (y :: ys))) = _
        rw [hMerged]
        rfl

theorem runs_perm (least : Nat) {fuel : Nat} (hFuel : xs.length ≤ fuel) (h : Compares before xs) :
    ∃ found, runs before least fuel xs = .ok found ∧ found.flatten.Perm xs := by
  induction fuel generalizing xs with
  | zero =>
    obtain rfl := List.eq_nil_of_length_eq_zero (Nat.le_zero.mp hFuel)
    exact ⟨[], rfl, .refl _⟩
  | succ fuel ih =>
    by_cases hSome : xs = []
    · subst hSome
      exact ⟨[], rfl, .refl _⟩
    · obtain ⟨run, rest, hFirst, hRun, hPerm⟩ := firstRun_perm h hSome
      have hLength := hPerm.length_eq
      have hPositive := List.length_pos_iff.mpr hRun
      rw [List.length_append] at hLength
      have hSplit (n : Nat) : (run ++ rest.take n ++ rest.drop n).Perm xs := by
        simpa using hPerm
      have hTaken : Compares before (run ++ rest.take (least - run.length)) :=
        h.mono (List.Subset.trans (List.sublist_append_left ..).subset (hSplit _).subset)
      have hDropped : Compares before (rest.drop (least - run.length)) :=
        h.mono (List.Subset.trans (List.sublist_append_right ..).subset (hSplit _).subset)
      obtain ⟨longer, hLonger, hEnd⟩ := insertAll_perm hTaken
      obtain ⟨found, hFound, hRest⟩ := ih (by rw [List.length_drop]; omega) hDropped
      refine ⟨longer :: found, ?_, ?_⟩
      · obtain ⟨x, xs, rfl⟩ := List.exists_cons_of_ne_nil hSome
        exact Except.bind_eq_ok.mpr ⟨(run, rest), hFirst,
          Except.bind_eq_ok.mpr ⟨longer, hLonger, Except.bind_eq_ok.mpr ⟨found, hFound, rfl⟩⟩⟩
      · rw [List.flatten_cons]
        exact (hEnd.append hRest).trans (hSplit _)

theorem mergeAll_perm (fuel : Nat) {found : List (List α)} (h : Compares before (xs ++ found.flatten)) :
    ∃ merged, found.foldlM (fun left right => merge before fuel left right) xs = .ok merged ∧
      merged.Perm (xs ++ found.flatten) := by
  induction found generalizing xs with
  | nil => exact ⟨xs, rfl, by simp⟩
  | cons run rest ih =>
    rw [List.flatten_cons, ← List.append_assoc] at h ⊢
    obtain ⟨next, hNext, hPerm⟩ := merge_perm fuel (h.mono (List.subset_append_left ..))
    have hAll : (next ++ rest.flatten).Perm (xs ++ run ++ rest.flatten) := hPerm.append_right _
    obtain ⟨merged, hMerged, hEnd⟩ := ih (h.mono hAll.subset)
    refine ⟨merged, ?_, hEnd.trans hAll⟩
    rw [List.foldlM_cons, hNext]
    exact hMerged

end StableSort

open StableSort in
theorem stableSort_perm {α ε : Type} {before : α → α → Except ε Bool} {xs : List α} (h : Compares before xs) :
    ∃ sorted, stableSort before xs = .ok sorted ∧ sorted.Perm xs := by
  obtain ⟨found, hFound, hPerm⟩ := runs_perm (runLength xs.length xs.length 0) (Nat.le_refl xs.length) h
  have hRuns : Compares before ([] ++ found.flatten) := h.mono hPerm.subset
  obtain ⟨sorted, hSorted, hEnd⟩ := mergeAll_perm xs.length hRuns
  exact ⟨sorted, Except.bind_eq_ok.mpr ⟨found, hFound, hSorted⟩, hEnd.trans hPerm⟩

end RecordCache
