import RecordCache.Proofs.Value.Sorting

/-!
# Sorting by a preorder

Where the comparison says what a total preorder says, a sort gives the one list that is in order and keeps
the elements that tie as they came, so the same list as a merge sort.
-/

namespace RecordCache.StableSort

variable {α ε : Type} {le : α → α → Bool} {before : α → α → Except ε Bool} {xs ys zs run rest : List α}
  {x y z last : α}

structure Preorders (le : α → α → Bool) : Prop where
  trans : ∀ a b c, le a b → le b c → le a c
  total : ∀ a b, le a b || le b a

namespace Preorders

variable (hLe : Preorders le)

include hLe

theorem refl (a : α) : le a a := by simpa using hLe.total a a

theorem of_not {a b : α} (h : ¬ le b a) : le a b := by
  have hTotal := hLe.total a b
  rw [Bool.or_eq_true] at hTotal
  exact hTotal.resolve_right h

end Preorders

/-- Neither comes before the other. -/
def tied (le : α → α → Bool) (a b : α) : Bool := le a b && le b a

theorem tied_iff {a b : α} : tied le a b ↔ le a b ∧ le b a := by simp [tied]

/-- What ties with any one element is the same in both lists, and in the same order. -/
def Kept (le : α → α → Bool) (xs ys : List α) : Prop :=
  ∀ x, ys.filter (tied le x) = xs.filter (tied le x)

namespace Kept

theorem refl : Kept le xs xs := fun _ => rfl

theorem trans (h : Kept le xs ys) (h' : Kept le ys zs) : Kept le xs zs := fun x => (h' x).trans (h x)

theorem append {xs' ys' : List α} (h : Kept le xs ys) (h' : Kept le xs' ys') : Kept le (xs ++ xs') (ys ++ ys') := by
  intro x
  rw [List.filter_append, List.filter_append, h x, h' x]

theorem append_right (h : Kept le xs ys) (zs : List α) : Kept le (xs ++ zs) (ys ++ zs) := h.append refl

theorem mem_iff (hLe : Preorders le) (h : Kept le xs ys) (x : α) : x ∈ ys ↔ x ∈ xs := by
  have hTied : tied le x x := tied_iff.mpr ⟨hLe.refl x, hLe.refl x⟩
  have hFilter := congrArg (x ∈ ·) (h x)
  simpa [List.mem_filter, hTied] using hFilter

end Kept

def InOrder (le : α → α → Bool) (xs : List α) : Prop := xs.Pairwise fun a b => le a b

/-- The second list is the first one, sorted. -/
structure Arranges (le : α → α → Bool) (xs ys : List α) : Prop where
  inOrder : InOrder le ys
  kept : Kept le xs ys

/-- Two lists in order that keep the same ties are equal, element by element. -/
theorem eq_of_kept (hLe : Preorders le) (hx : InOrder le xs) (hy : InOrder le ys) (h : Kept le xs ys) : ys = xs := by
  have hMem := h.mem_iff hLe
  induction xs generalizing ys with
  | nil => exact List.eq_nil_iff_forall_not_mem.mpr fun y hy' => List.not_mem_nil ((hMem y).mp hy')
  | cons x xs ih =>
    obtain ⟨hFirst, hRest⟩ := List.pairwise_cons.mp hx
    match ys with
    | [] => exact absurd ((hMem x).mpr List.mem_cons_self) List.not_mem_nil
    | y :: ys =>
      obtain ⟨hFirst', hRest'⟩ := List.pairwise_cons.mp hy
      -- Each of the first elements stands in the other list, so neither comes before the other.
      have hForth : le x y := by
        rcases List.mem_cons.mp ((hMem y).mp List.mem_cons_self) with rfl | hIn
        · exact hLe.refl _
        · exact hFirst y hIn
      have hBack : le y x := by
        rcases List.mem_cons.mp ((hMem x).mpr List.mem_cons_self) with rfl | hIn
        · exact hLe.refl _
        · exact hFirst' x hIn
      have hHeads := h x
      rw [List.filter_cons_of_pos (tied_iff.mpr ⟨hForth, hBack⟩),
        List.filter_cons_of_pos (tied_iff.mpr ⟨hLe.refl x, hLe.refl x⟩)] at hHeads
      obtain rfl := (List.cons.inj hHeads).1
      have hTails : Kept le xs ys := by
        intro z
        have hBoth := h z
        rw [List.filter_cons, List.filter_cons] at hBoth
        split at hBoth
        · exact (List.cons.inj hBoth).2
        · exact hBoth
      rw [ih hRest hRest' hTails (hTails.mem_iff hLe)]

theorem Arranges.unique (hLe : Preorders le) (h : Arranges le xs ys) (h' : Arranges le xs zs) : ys = zs := by
  have hKept : Kept le zs ys := fun x => (h.kept x).trans (h'.kept x).symm
  exact eq_of_kept hLe h'.inOrder h.inOrder hKept

theorem arranges_mergeSort (hLe : Preorders le) (xs : List α) : Arranges le xs (xs.mergeSort le) := by
  refine ⟨List.pairwise_mergeSort hLe.trans hLe.total xs, fun x => ?_⟩
  have hTies : (xs.filter (tied le x)).Pairwise fun a b => le a b := by
    refine List.pairwise_of_forall_mem_list fun a ha b hb => ?_
    have hFirst := tied_iff.mp (List.mem_filter.mp ha).2
    have hSecond := tied_iff.mp (List.mem_filter.mp hb).2
    exact hLe.trans _ _ _ hFirst.2 hSecond.1
  have hSublist := (List.sublist_mergeSort hLe.trans hLe.total hTies List.filter_sublist).filter (tied le x)
  have hLength := ((List.mergeSort_perm xs le).filter (tied le x)).length_eq
  rw [List.filter_filter, List.filter_congr fun a _ => Bool.and_self (tied le x a)] at hSublist
  exact (hSublist.eq_of_length hLength.symm).symm

/-- The comparison of a sort says what the preorder says. -/
def Decides (before : α → α → Except ε Bool) (le : α → α → Bool) (xs : List α) : Prop :=
  ∀ x ∈ xs, ∀ y ∈ xs, before x y = .ok (!le y x)

theorem Decides.mono (h : Decides before le ys) (hSubset : xs ⊆ ys) : Decides before le xs :=
  fun x hx y hy => h x (hSubset hx) y (hSubset hy)

theorem Decides.compares (h : Decides before le xs) : Compares before xs :=
  fun x hx y hy => ⟨_, h x hx y hy⟩

/-! ### The run that a list starts with -/

/-- Falling elements never tie, so turning them over keeps every tie. -/
theorem arranges_reverse (hLe : Preorders le) (h : xs.Pairwise fun a b => ¬ le b a) : Arranges le xs.reverse xs := by
  refine ⟨h.imp hLe.of_not, fun x => ?_⟩
  rw [List.filter_reverse]
  have hTies := h.filter (tied le x)
  match hFound : xs.filter (tied le x) with
  | [] => rfl
  | [a] => rfl
  | a :: b :: found =>
    have ha := tied_iff.mp (List.mem_filter.mp (hFound ▸ List.mem_cons_self : a ∈ xs.filter (tied le x))).2
    have hb := tied_iff.mp (List.mem_filter.mp
      (hFound ▸ List.mem_cons_of_mem _ List.mem_cons_self : b ∈ xs.filter (tied le x))).2
    rw [hFound] at hTies
    exact absurd (hLe.trans _ _ _ hb.2 ha.1) ((List.pairwise_cons.mp hTies).1 b List.mem_cons_self)

theorem fall_takes (hLe : Preorders le) {seen : List α} (h : Decides before le (last :: xs))
    (hSeen : (last :: seen).Pairwise fun a b => ¬ le b a) :
    ∃ run rest, fall before last seen xs = .ok (run, rest) ∧ (run.Pairwise fun a b => ¬ le b a) ∧
      run.reverse ++ rest = seen.reverse ++ last :: xs := by
  induction xs generalizing last seen with
  | nil => exact ⟨last :: seen, [], rfl, hSeen, by simp⟩
  | cons x rest ih =>
    have hLast := h x (by simp) last (by simp)
    cases hFalls : le last x with
    | false =>
      have hBelow : ∀ y ∈ last :: seen, ¬ le y x := by
        intro y hy hUp
        rcases List.mem_cons.mp hy with rfl | hIn
        · rw [hFalls] at hUp
          cases hUp
        · have hDown : le x last := hLe.of_not (by simp [hFalls])
          exact (List.pairwise_cons.mp hSeen).1 y hIn (hLe.trans _ _ _ hUp hDown)
      obtain ⟨run, others, hFall, hRun, hAll⟩ :=
        ih (h.mono (List.subset_cons_self ..)) (List.pairwise_cons.mpr ⟨hBelow, hSeen⟩)
      refine ⟨run, others, ?_, hRun, by simpa using hAll⟩
      rw [fall, hLast, hFalls]
      exact hFall
    | true =>
      refine ⟨last :: seen, x :: rest, ?_, hSeen, by simp⟩
      rw [fall, hLast, hFalls]
      rfl

theorem rise_takes (hLe : Preorders le) {seen : List α} (h : Decides before le (last :: xs))
    (hSeen : InOrder le (seen.reverse ++ [last])) :
    ∃ run rest, rise before last seen xs = .ok (run, rest) ∧ InOrder le run ∧
      run ++ rest = seen.reverse ++ last :: xs := by
  induction xs generalizing last seen with
  | nil => exact ⟨(last :: seen).reverse, [], rfl, by simpa using hSeen, by simp⟩
  | cons x rest ih =>
    have hLast := h x (by simp) last (by simp)
    cases hRises : le last x with
    | false =>
      refine ⟨(last :: seen).reverse, x :: rest, ?_, by simpa using hSeen, by simp⟩
      rw [rise, hLast, hRises]
      rfl
    | true =>
      have hAbove : ∀ y ∈ seen.reverse ++ [last], le y x := by
        intro y hy
        rcases List.mem_append.mp hy with hIn | hIn
        · have hUp := (List.pairwise_append.mp hSeen).2.2 y hIn last (by simp)
          exact hLe.trans _ _ _ hUp hRises
        · obtain rfl := List.mem_singleton.mp hIn
          exact hRises
      have hNext : InOrder le ((last :: seen).reverse ++ [x]) := by
        rw [List.reverse_cons]
        refine List.pairwise_append.mpr ⟨hSeen, List.pairwise_singleton .., fun y hy z hz => ?_⟩
        obtain rfl := List.mem_singleton.mp hz
        exact hAbove y hy
      obtain ⟨run, others, hRise, hRun, hAll⟩ := ih (h.mono (List.subset_cons_self ..)) hNext
      refine ⟨run, others, ?_, hRun, by simpa using hAll⟩
      rw [rise, hLast, hRises]
      exact hRise

theorem firstRun_takes (hLe : Preorders le) (h : Decides before le xs) :
    ∃ taken run rest, firstRun before xs = .ok (run, rest) ∧ taken ++ rest = xs ∧ Arranges le taken run := by
  match xs with
  | [] => exact ⟨[], [], [], rfl, rfl, List.Pairwise.nil, .refl⟩
  | [x] => exact ⟨[x], [x], [], rfl, rfl, List.pairwise_singleton .., .refl⟩
  | x :: y :: rest =>
    have hTail := h.mono (List.subset_cons_self x (y :: rest))
    rw [firstRun, h y (by simp) x (by simp)]
    cases hRises : le x y with
    | false =>
      have hSeen : [y, x].Pairwise fun a b => ¬ le b a := by simp [hRises]
      obtain ⟨run, others, hFall, hRun, hAll⟩ := fall_takes hLe hTail hSeen
      exact ⟨run.reverse, run, others, hFall, hAll, arranges_reverse hLe hRun⟩
    | true =>
      have hSeen : InOrder le ([x].reverse ++ [y]) := by simp [InOrder, hRises]
      obtain ⟨run, others, hRise, hRun, hAll⟩ := rise_takes hLe hTail hSeen
      exact ⟨run, run, others, hRise, hAll, hRun, .refl⟩

/-! ### Inserting -/

/-- The elements below the place found are at most `x`, and those from there on are above it. -/
theorem placeFor_parts (h : ∀ y ∈ run, before x y = .ok (!le y x)) (hRun : InOrder le run) (hLe : Preorders le)
    (fuel low high : Nat) (hFuel : high < low + fuel) (hLow : low ≤ high) (hHigh : high ≤ run.length)
    (hBelow : ∀ y ∈ run.take low, le y x) (hAbove : ∀ y ∈ run.drop high, ¬ le y x) :
    ∃ place, placeFor before x run fuel low high = .ok place ∧ (∀ y ∈ run.take place, le y x) ∧
      ∀ y ∈ run.drop place, ¬ le y x := by
  induction fuel generalizing low high with
  | zero => omega
  | succ fuel ih =>
    rw [placeFor]
    split
    · obtain rfl : low = high := by omega
      exact ⟨low, rfl, hBelow, hAbove⟩
    · let middle := low + (high - low) / 2
      have hMiddle : middle < run.length := by omega
      have hSplit : run.take middle ++ run[middle] :: run.drop (middle + 1) = run := by simp
      obtain ⟨-, hFrom, hAcross⟩ := List.pairwise_append.mp (hSplit ▸ hRun : InOrder le _)
      simp only [show run[low + (high - low) / 2]? = some run[middle] from List.getElem?_eq_getElem hMiddle,
        h _ (List.getElem_mem hMiddle)]
      cases hAtMost : le run[middle] x with
      | false =>
        refine ih _ _ (by omega) (by omega) (by omega) hBelow fun y hy hUp => ?_
        rw [List.drop_eq_getElem_cons hMiddle] at hy
        rcases List.mem_cons.mp hy with rfl | hIn
        · rw [hAtMost] at hUp
          cases hUp
        · have hPassed := hLe.trans _ _ _ ((List.pairwise_cons.mp hFrom).1 y hIn) hUp
          rw [hAtMost] at hPassed
          cases hPassed
      | true =>
        refine ih _ _ (by omega) (by omega) hHigh (fun y hy => ?_) hAbove
        rw [List.take_succ_eq_append_getElem hMiddle] at hy
        rcases List.mem_append.mp hy with hIn | hIn
        · exact hLe.trans _ _ _ (hAcross y hIn _ List.mem_cons_self) hAtMost
        · obtain rfl := List.mem_singleton.mp hIn
          exact hAtMost

theorem insert_arranges (hLe : Preorders le) (h : ∀ y ∈ run, before x y = .ok (!le y x)) (hRun : InOrder le run) :
    ∃ longer, insert before run x = .ok longer ∧ Arranges le (run ++ [x]) longer := by
  obtain ⟨place, hPlace, hBelow, hAbove⟩ := placeFor_parts h hRun hLe (run.length + 1) 0 run.length
    (by omega) (by omega) (Nat.le_refl _) (by simp) (by simp)
  have hParts := List.take_append_drop place run
  obtain ⟨hLeft, hRight, hAcross⟩ := List.pairwise_append.mp (hParts.symm ▸ hRun : InOrder le _)
  refine ⟨run.take place ++ x :: run.drop place, ?_, ?_, ?_⟩
  · rw [insert, hPlace]
    rfl
  · refine List.pairwise_append.mpr ⟨hLeft, List.pairwise_cons.mpr ⟨fun y hy => ?_, hRight⟩, fun a ha b hb => ?_⟩
    · exact hLe.of_not (hAbove y hy)
    · rcases List.mem_cons.mp hb with rfl | hIn
      · exact hBelow a ha
      · exact hAcross a ha b hIn
  · intro z
    have hWhole : run.filter (tied le z) =
        (run.take place).filter (tied le z) ++ (run.drop place).filter (tied le z) := by
      rw [← List.filter_append, hParts]
    by_cases hTied : tied le z x
    · -- What ties with `x` stands in front of it.
      have hNone : (run.drop place).filter (tied le z) = [] := by
        refine List.filter_eq_nil_iff.mpr fun y hy hAlso => hAbove y hy ?_
        exact hLe.trans _ _ _ (tied_iff.mp hAlso).2 (tied_iff.mp hTied).1
      simp [hTied, hNone, hWhole]
    · simp [hTied, hWhole]

theorem insertAll_arranges (hLe : Preorders le) (h : Decides before le (run ++ xs)) (hRun : InOrder le run) :
    ∃ longer, xs.foldlM (insert before) run = .ok longer ∧ Arranges le (run ++ xs) longer := by
  induction xs generalizing run with
  | nil => exact ⟨run, rfl, hRun, by simpa using Kept.refl⟩
  | cons x rest ih =>
    have hAgainst : ∀ y ∈ run, before x y = .ok (!le y x) := fun y hy => h x (by simp) y (by simp [hy])
    obtain ⟨next, hNext, hArranged⟩ := insert_arranges hLe hAgainst hRun
    have hKept : Kept le (run ++ x :: rest) (next ++ rest) := by
      simpa using hArranged.kept.append_right rest
    have hSubset : next ++ rest ⊆ run ++ x :: rest := fun y hy => (hKept.mem_iff hLe y).mp hy
    obtain ⟨longer, hLonger, hEnd⟩ := ih (h.mono hSubset) hArranged.inOrder
    refine ⟨longer, ?_, hEnd.inOrder, hKept.trans hEnd.kept⟩
    rw [List.foldlM_cons, hNext]
    exact hLonger

/-! ### Merging -/

theorem merge_eq {fuel : Nat} (hFuel : xs.length + ys.length ≤ fuel) (h : Decides before le (xs ++ ys)) :
    merge before fuel xs ys = .ok (xs.merge ys le) := by
  induction fuel generalizing xs ys with
  | zero =>
    obtain rfl := List.eq_nil_of_length_eq_zero (show xs.length = 0 by omega)
    obtain rfl := List.eq_nil_of_length_eq_zero (show ys.length = 0 by omega)
    simp [merge]
  | succ fuel ih =>
    cases xs with
    | nil => simp [merge]
    | cons x xs =>
      cases ys with
      | nil => simp [merge]
      | cons y ys =>
        rw [merge, h y (by simp) x (by simp), List.cons_merge_cons]
        cases le x y with
        | true =>
          have hRest : Decides before le (xs ++ y :: ys) := h.mono (List.subset_cons_self x _)
          change (do return x :: (← merge before fuel xs (y :: ys))) = _
          rw [ih (by simp at hFuel ⊢; omega) hRest]
          rfl
        | false =>
          have hRest : Decides before le (x :: xs ++ ys) :=
            h.mono (List.Subset.trans (List.subset_cons_self y _) List.perm_middle.symm.subset)
          change (do return y :: (← merge before fuel (x :: xs) ys)) = _
          rw [ih (by simp at hFuel ⊢; omega) hRest]
          rfl

theorem merge_arranges (hLe : Preorders le) (hx : InOrder le xs) (hy : InOrder le ys) :
    Arranges le (xs ++ ys) (xs.merge ys le) := by
  refine ⟨List.pairwise_merge hLe.trans hLe.total _ _ hx hy, ?_⟩
  intro z
  induction xs generalizing ys with
  | nil => simp
  | cons x xs ih =>
    induction ys with
    | nil => simp
    | cons y ys ih' =>
      obtain ⟨hFirst, hRest⟩ := List.pairwise_cons.mp hx
      rw [List.cons_merge_cons]
      split
      · rw [List.filter_cons, ih hRest hy, List.cons_append, List.filter_cons]
      · next hNot =>
        rw [List.filter_cons, ih' (List.pairwise_cons.mp hy).2]
        by_cases hTied : tied le z y
        · -- What ties with `y` comes before everything in the left list.
          have hNone : (x :: xs).filter (tied le z) = [] := by
            refine List.filter_eq_nil_iff.mpr fun a ha hAlso => hNot ?_
            have hTo : le a y := hLe.trans _ _ _ (tied_iff.mp hAlso).2 (tied_iff.mp hTied).1
            rcases List.mem_cons.mp ha with rfl | hIn
            · exact hTo
            · exact hLe.trans _ _ _ (hFirst a hIn) hTo
          simp only [List.filter_append, hNone, hTied, List.nil_append, if_true, List.filter_cons_of_pos]
        · simp only [List.filter_append, hTied, Bool.false_eq_true, if_false, List.filter_cons_of_neg,
            not_false_eq_true]

theorem mergeAll_arranges (hLe : Preorders le) {fuel : Nat} {found : List (List α)}
    (hFuel : xs.length + found.flatten.length ≤ fuel) (h : Decides before le (xs ++ found.flatten))
    (hx : InOrder le xs) (hFound : ∀ run ∈ found, InOrder le run) :
    ∃ merged, found.foldlM (fun left right => merge before fuel left right) xs = .ok merged ∧
      Arranges le (xs ++ found.flatten) merged := by
  induction found generalizing xs with
  | nil => exact ⟨xs, rfl, hx, by simpa using Kept.refl⟩
  | cons run others ih =>
    rw [List.flatten_cons, ← List.append_assoc] at h ⊢
    simp only [List.flatten_cons, List.length_append] at hFuel
    have hNext := merge_arranges hLe hx (hFound run List.mem_cons_self)
    have hKept := hNext.kept.append_right others.flatten
    have hSubset : xs.merge run le ++ others.flatten ⊆ xs ++ run ++ others.flatten :=
      fun y hy => (hKept.mem_iff hLe y).mp hy
    obtain ⟨merged, hMerged, hEnd⟩ := ih (by rw [List.length_merge]; omega) (h.mono hSubset) hNext.inOrder
      fun other hOther => hFound other (List.mem_cons_of_mem _ hOther)
    refine ⟨merged, ?_, hEnd.inOrder, hKept.trans hEnd.kept⟩
    rw [List.foldlM_cons, merge_eq (by omega) (h.mono (List.subset_append_left ..))]
    exact hMerged

/-! ### The whole sort -/

theorem runs_arrange (hLe : Preorders le) (least : Nat) {fuel : Nat} {found : List (List α)}
    (h : Decides before le xs) (hFuel : xs.length ≤ fuel) (hFound : runs before least fuel xs = .ok found) :
    Kept le xs found.flatten ∧ ∀ run ∈ found, InOrder le run := by
  induction fuel generalizing xs found with
  | zero =>
    obtain rfl := List.eq_nil_of_length_eq_zero (Nat.le_zero.mp hFuel)
    cases hFound
    exact ⟨.refl, by simp⟩
  | succ fuel ih =>
    match xs with
    | [] =>
      cases hFound
      exact ⟨.refl, by simp⟩
    | x :: xs =>
      obtain ⟨⟨run, rest⟩, hFirst, hFound⟩ := Except.bind_eq_ok.mp hFound
      obtain ⟨longer, hLonger, hFound⟩ := Except.bind_eq_ok.mp hFound
      obtain ⟨others, hOthers, hFound⟩ := Except.bind_eq_ok.mp hFound
      cases hFound
      obtain ⟨taken, run', rest', hFirst', hAll, hRun⟩ := firstRun_takes hLe h
      obtain ⟨rfl, rfl⟩ := Prod.mk.inj (Except.ok.inj (hFirst.symm.trans hFirst'))
      have hShorter : rest.length ≤ fuel := by
        obtain ⟨run', rest', hFirst', hSome, hPerm⟩ := firstRun_perm h.compares (List.cons_ne_nil x xs)
        obtain ⟨rfl, rfl⟩ := Prod.mk.inj (Except.ok.inj (hFirst.symm.trans hFirst'))
        have hLength := hPerm.length_eq
        have hPositive := List.length_pos_iff.mpr hSome
        rw [List.length_append] at hLength
        omega
      -- The run grows by the elements that it is short of; the others come in runs of their own.
      have hKept : Kept le (x :: xs) (run ++ rest) := hAll ▸ hRun.kept.append .refl
      have hSubset : run ++ rest ⊆ x :: xs := fun y hy => (hKept.mem_iff hLe y).mp hy
      have hParts := List.take_append_drop (least - run.length) rest
      have hTaken : Decides before le (run ++ rest.take (least - run.length)) :=
        h.mono (List.Subset.trans ((List.take_sublist ..).append_left run).subset hSubset)
      have hDropped : Decides before le (rest.drop (least - run.length)) :=
        h.mono (List.Subset.trans (List.drop_subset ..)
          (List.Subset.trans (List.subset_append_right ..) hSubset))
      obtain ⟨longer', hLonger', hGrown⟩ := insertAll_arranges hLe hTaken hRun.inOrder
      obtain rfl := Except.ok.inj (hLonger.symm.trans hLonger')
      obtain ⟨hRest, hRuns⟩ := ih hDropped (by rw [List.length_drop]; omega) hOthers
      constructor
      · refine hKept.trans ?_
        have hGrownKept := hGrown.kept.append hRest
        rwa [List.append_assoc, hParts] at hGrownKept
      · intro other hOther
        rcases List.mem_cons.mp hOther with rfl | hIn
        · exact hGrown.inOrder
        · exact hRuns other hIn

theorem stableSort_of_preorders (hLe : Preorders le) (h : Decides before le xs) :
    stableSort before xs = .ok (xs.mergeSort le) := by
  obtain ⟨found, hFound, hPerm⟩ := runs_perm (runLength xs.length xs.length 0) (Nat.le_refl xs.length) h.compares
  obtain ⟨hKept, hRuns⟩ := runs_arrange hLe _ h (Nat.le_refl _) hFound
  have hAll : Decides before le ([] ++ found.flatten) := h.mono hPerm.subset
  have hFuel : ([] : List α).length + found.flatten.length ≤ xs.length := by simp [hPerm.length_eq]
  obtain ⟨sorted, hSorted, hMerged⟩ := mergeAll_arranges hLe hFuel hAll List.Pairwise.nil hRuns
  have hArranged : Arranges le xs sorted := ⟨hMerged.inOrder, hKept.trans hMerged.kept⟩
  rw [← hArranged.unique hLe (arranges_mergeSort hLe xs)]
  exact Except.bind_eq_ok.mpr ⟨found, hFound, hSorted⟩

/-- A total preorder among the elements of a list. -/
structure PreordersOn (le : α → α → Bool) (xs : List α) : Prop where
  trans : ∀ a ∈ xs, ∀ b ∈ xs, ∀ c ∈ xs, le a b → le b c → le a c
  total : ∀ a ∈ xs, ∀ b ∈ xs, le a b || le b a

open Classical in
/-- Everything else comes after the elements of the list, and ties. -/
noncomputable def extended (le : α → α → Bool) (xs : List α) (a b : α) : Bool :=
  decide (b ∉ xs ∨ (a ∈ xs ∧ le a b))

theorem extended_of_mem {a b : α} (ha : a ∈ xs) (hb : b ∈ xs) : extended le xs a b = le a b := by
  simp [extended, ha, hb]

theorem PreordersOn.extended (h : PreordersOn le xs) : Preorders (extended le xs) := by
  constructor
  · intro a b c hab hbc
    simp only [StableSort.extended, decide_eq_true_eq] at hab hbc ⊢
    rcases hbc with hOut | ⟨hb, hbc⟩
    · exact .inl hOut
    · obtain ⟨ha, hab⟩ := hab.resolve_left (not_not_intro hb)
      by_cases hc : c ∈ xs
      · exact .inr ⟨ha, h.trans a ha b hb c hc hab hbc⟩
      · exact .inl hc
  · intro a b
    simp only [StableSort.extended, Bool.or_eq_true, decide_eq_true_eq]
    by_cases ha : a ∈ xs
    · by_cases hb : b ∈ xs
      · have hTotal := h.total a ha b hb
        rw [Bool.or_eq_true] at hTotal
        exact hTotal.imp (fun hab => .inr ⟨ha, hab⟩) fun hba => .inr ⟨hb, hba⟩
      · exact .inl (.inl hb)
    · exact .inr (.inl ha)

theorem mergeSort_congr {le' : α → α → Bool} (h : ∀ a ∈ xs, ∀ b ∈ xs, le a b = le' a b) :
    xs.mergeSort le = xs.mergeSort le' := by
  have hSame := List.map_mergeSort (f := id) h
  rwa [List.map_id, List.map_id] at hSame

theorem PreordersOn.arranges (hLe : PreordersOn le xs) :
    InOrder le (xs.mergeSort le) ∧ ∀ a ∈ xs, (xs.mergeSort le).filter (tied le a) = xs.filter (tied le a) := by
  have hArranged := arranges_mergeSort hLe.extended xs
  rw [mergeSort_congr fun a ha b hb => extended_of_mem ha hb] at hArranged
  have hMem {a : α} (ha : a ∈ xs.mergeSort le) : a ∈ xs := List.mem_mergeSort.mp ha
  refine ⟨hArranged.inOrder.imp_of_mem fun ha hb h => ?_, fun a ha => ?_⟩
  · rwa [extended_of_mem (hMem ha) (hMem hb)] at h
  · have hTied {b : α} (hb : b ∈ xs) : tied (StableSort.extended le xs) a b = tied le a b := by
      rw [tied, tied, extended_of_mem ha hb, extended_of_mem hb ha]
    rw [← List.filter_congr fun b hb => hTied hb, ← List.filter_congr fun b hb => hTied (hMem hb)]
    exact hArranged.kept a

/-! ### One sort after another -/

/-- By the first preorder, and where that ties by the second one. -/
def thenBy (first second : α → α → Bool) (a b : α) : Bool := first a b && (!first b a || second a b)

section Successive

variable {first second : α → α → Bool}

theorem thenBy_iff {a b : α} : thenBy first second a b ↔ first a b ∧ (first b a → second a b) := by
  simp only [thenBy, Bool.and_eq_true, Bool.or_eq_true, Bool.not_eq_true']
  cases first b a <;> simp

theorem Preorders.thenBy (hFirst : Preorders first) (hSecond : Preorders second) : Preorders (thenBy first second) := by
  constructor
  · intro a b c hab hbc
    rw [thenBy_iff] at hab hbc ⊢
    refine ⟨hFirst.trans _ _ _ hab.1 hbc.1, fun hca => ?_⟩
    exact hSecond.trans _ _ _ (hab.2 (hFirst.trans _ _ _ hbc.1 hca)) (hbc.2 (hFirst.trans _ _ _ hca hab.1))
  · intro a b
    rw [Bool.or_eq_true, thenBy_iff, thenBy_iff]
    by_cases hForth : first a b
    · by_cases hBack : first b a
      · have hTotal := hSecond.total a b
        rw [Bool.or_eq_true] at hTotal
        exact hTotal.imp (fun h => ⟨hForth, fun _ => h⟩) fun h => ⟨hBack, fun _ => h⟩
      · exact .inl ⟨hForth, fun h => absurd h hBack⟩
    · exact .inr ⟨hFirst.of_not hForth, fun h => absurd h hForth⟩

theorem tied_thenBy (x a : α) : tied (thenBy first second) x a = (tied first x a && tied second x a) := by
  rw [Bool.eq_iff_iff, Bool.and_eq_true, tied_iff, tied_iff, tied_iff, thenBy_iff, thenBy_iff]
  exact ⟨fun ⟨⟨hForth, h⟩, hBack, h'⟩ => ⟨⟨hForth, hBack⟩, h hBack, h' hForth⟩,
    fun ⟨⟨hForth, hBack⟩, h, h'⟩ => ⟨⟨hForth, fun _ => h⟩, hBack, fun _ => h'⟩⟩

theorem Arranges.thenBy (hFirst : Preorders first) (h : Arranges second xs ys) (h' : Arranges first ys zs) :
    Arranges (thenBy first second) xs zs := by
  constructor
  · refine List.pairwise_iff_forall_sublist.mpr fun {a b} hPair => thenBy_iff.mpr ?_
    have hForth : first a b := List.pairwise_iff_forall_sublist.mp h'.inOrder hPair
    refine ⟨hForth, fun hBack => ?_⟩
    -- Elements that tie are still in the order of the sort before.
    have hTied : [a, b].filter (tied first a) = [a, b] := by
      simp [tied, hFirst.refl a, hForth, hBack]
    have hTies := h.inOrder.filter (tied first a)
    rw [← h'.kept a] at hTies
    exact List.pairwise_iff_forall_sublist.mp hTies (hTied ▸ hPair.filter (tied first a))
  · intro x
    have hSplit (list : List α) : list.filter (tied (StableSort.thenBy first second) x) =
        (list.filter (tied first x)).filter (tied second x) := by
      rw [List.filter_filter]
      exact List.filter_congr fun a _ => by rw [tied_thenBy, Bool.and_comm]
    rw [hSplit, hSplit, h'.kept x, List.filter_comm, h.kept x, List.filter_comm]

theorem mergeSort_thenBy (hFirst : PreordersOn first xs) (hSecond : PreordersOn second xs) :
    (xs.mergeSort second).mergeSort first = xs.mergeSort (thenBy first second) := by
  have hInner : xs.mergeSort second = xs.mergeSort (extended second xs) :=
    mergeSort_congr fun a ha b hb => (extended_of_mem ha hb).symm
  have hMem {a : α} (ha : a ∈ xs.mergeSort second) : a ∈ xs := List.mem_mergeSort.mp ha
  have hArranged := (arranges_mergeSort hSecond.extended xs).thenBy hFirst.extended
    (arranges_mergeSort hFirst.extended _)
  calc (xs.mergeSort second).mergeSort first
      = (xs.mergeSort second).mergeSort (extended first xs) :=
        mergeSort_congr fun a ha b hb => (extended_of_mem (hMem ha) (hMem hb)).symm
    _ = (xs.mergeSort (extended second xs)).mergeSort (extended first xs) := by rw [hInner]
    _ = xs.mergeSort (thenBy (extended first xs) (extended second xs)) :=
        hArranged.unique (hFirst.extended.thenBy hSecond.extended) (arranges_mergeSort
          (hFirst.extended.thenBy hSecond.extended) xs)
    _ = xs.mergeSort (thenBy first second) :=
        mergeSort_congr fun a ha b hb => by
          simp only [thenBy, extended_of_mem ha hb, extended_of_mem hb ha]

end Successive

end StableSort

open StableSort in
/-- Sorting by a comparison that follows a preorder on the elements is the stable sort by that preorder. -/
theorem stableSort_eq_mergeSort {α ε : Type} {before : α → α → Except ε Bool} {le : α → α → Bool} {xs : List α}
    (hLe : PreordersOn le xs) (h : Decides before le xs) : stableSort before xs = .ok (xs.mergeSort le) := by
  have hExtended : Decides before (extended le xs) xs := by
    intro x hx y hy
    rw [extended_of_mem hy hx]
    exact h x hx y hy
  rw [stableSort_of_preorders hLe.extended hExtended]
  exact congrArg Except.ok (mergeSort_congr fun a ha b hb => extended_of_mem ha hb)

end RecordCache
