import RecordCache.Proofs.Relation.Lookups
import RecordCache.Proofs.Relation.Memo

/-!
# Calls and loads keep in step

The invariant behind `Lookups.Accounted` and `Lookups.SingleFlight`. `Mirrors` ties the memo to the loads,
whether the index knows them or not; `Balanced` accounts for each call; `Sole` tells that the index knows
every load that is not over, which holds until the memo is cleared.
-/

namespace RecordCache.Lookups

variable {κ α : Type} {memo : RelationMemo κ} {calls : List (Lookup κ)} {loads : List Loading}
  {answering told : List Nat} {given : List (κ × Except Error Nat)} {load : Nat} {l l' : Loading}

/-- Whom the calls are to tell. -/
abbrev Callers (calls : List (Lookup κ)) : List Nat → List κ → Prop :=
  List.Forall₂ fun i caller => ∃ call, calls[i]? = some call ∧ call.caller = caller

structure Mirrors (memo : RelationMemo κ) (calls : List (Lookup κ)) (loads : List Loading) : Prop where
  nodup : memo.index.keys.Nodup
  length : memo.loads.length = loads.length
  loaded : ∀ (load : Nat) (l : Loading), loads[load]? = some l → (memo.relation? load).isSome = l.loaded
  callers : ∀ (load : Nat) (l : Loading) (e : RelationLoad κ), loads[load]? = some l → l.fetched = none →
    memo.loads[load]? = some e → Callers calls l.waiting e.waiting
  indexed : ∀ (key : String) (load : Nat), memo.index.get? key = some load →
    ∃ l, loads[load]? = some l ∧ l.key = key ∧ l.spent = false

structure Balanced (given : List (κ × Except Error Nat)) (calls : List (Lookup κ)) (loads : List Loading)
    (answering told : List Nat) : Prop where
  once : (told ++ answering ++ loads.flatMap (·.waiting)).Perm (List.range calls.length)
  given : List.Forall₂ (Gives calls loads) told given
  order : ∀ (load : Nat) (l : Loading), loads[load]? = some l →
    told.filter (waitsFor calls load) ++ l.waiting = waiters calls load
  atOnce : ∀ i ∈ answering, ∃ call, calls[i]? = some call ∧ call.late = true
  keyed : ∀ call ∈ calls, ∃ l, loads[call.load]? = some l ∧ l.key = call.key ∧
    (call.late = true → l.loaded = true)

structure Sole (memo : RelationMemo κ) (loads : List Loading) : Prop where
  index : ∀ (load : Nat) (l : Loading), loads[load]? = some l → l.spent = false →
    memo.index.get? l.key = some load
  again : ∀ (load load' : Nat) (l l' : Loading), loads[load]? = some l → loads[load']? = some l' →
    load < load' → l.key = l'.key → l.spent = true
  kept : ∀ l ∈ loads, l.fetched = none → l.dropped = false

structure Sound (log : α → List (κ × Except Error Nat)) (t : Lookups κ α) : Prop where
  mirrors : Mirrors t.session.relations t.calls t.loads
  balanced : Balanced (log t.session.app) t.calls t.loads t.answering t.told
  sole : t.cleared = false → Sole t.session.relations t.loads

/-! ### One load among the others -/

/-- A load keeps its key and its outcome. -/
def Becomes (l l' : Loading) : Prop :=
  l'.key = l.key ∧ ∀ result, l.fetched = some result → l'.fetched = some result

theorem Becomes.loaded (h : Becomes l l') (hLoaded : l.loaded = true) : l'.loaded = true := by
  rw [Loading.loaded] at hLoaded ⊢
  split at hLoaded
  · next pointers hFetched => rw [h.2 _ hFetched]
  · cases hLoaded

theorem becomes_waiting (l : Loading) (waiting : List Nat) : Becomes l { l with waiting } :=
  ⟨rfl, fun _ hFetched => hFetched⟩

theorem becomes_fetched (hFetched : l.fetched = none) (result : Except Error (List Pointer)) :
    Becomes l { l with fetched := some result } := by
  refine ⟨rfl, fun other hOther => ?_⟩
  rw [hFetched] at hOther
  cases hOther

/-- Each load is still there. -/
def Stay (loads loads' : List Loading) : Prop :=
  ∀ (load : Nat) (l : Loading), loads[load]? = some l → ∃ l', loads'[load]? = some l' ∧ Becomes l l'

theorem Stay.refl (loads : List Loading) : Stay loads loads :=
  fun _ l hLoad => ⟨l, hLoad, rfl, fun _ hFetched => hFetched⟩

theorem getElem?_set_iff (hLoad : loads[load]? = some l) (l' m : Loading) (n : Nat) :
    (loads.set load l')[n]? = some m ↔ n = load ∧ m = l' ∨ n ≠ load ∧ loads[n]? = some m := by
  have hLength := (List.getElem?_eq_some_iff.mp hLoad).1
  rw [List.getElem?_set]
  by_cases hSame : load = n
  · subst hSame
    simp [hLength, eq_comm]
  · simp [hSame, Ne.symm hSame]

theorem waiting_perm_set (hLoad : loads[load]? = some l) (l' : Loading) :
    ((loads.set load l').flatMap (·.waiting)).Perm
      (l'.waiting ++ (loads.eraseIdx load).flatMap (·.waiting)) :=
  (List.set_perm_cons_eraseIdx (List.getElem?_eq_some_iff.mp hLoad).1 l').flatMap_right _

theorem waiting_perm (hLoad : loads[load]? = some l) :
    (loads.flatMap (·.waiting)).Perm (l.waiting ++ (loads.eraseIdx load).flatMap (·.waiting)) := by
  obtain ⟨hLength, hEq⟩ := List.getElem?_eq_some_iff.mp hLoad
  have hPerm := List.getElem_cons_eraseIdx_perm hLength
  rw [hEq] at hPerm
  exact hPerm.symm.flatMap_right _

theorem stay_set (hLoad : loads[load]? = some l) (hBecomes : Becomes l l') :
    Stay loads (loads.set load l') := by
  intro n m hn
  by_cases hSame : n = load
  · subst hSame
    obtain rfl : l = m := Option.some.inj (hLoad.symm.trans hn)
    exact ⟨l', (getElem?_set_iff hLoad l' l' n).mpr (.inl ⟨rfl, rfl⟩), hBecomes⟩
  · exact ⟨m, (getElem?_set_iff hLoad l' m n).mpr (.inr ⟨hSame, hn⟩), rfl, fun _ hFetched => hFetched⟩

theorem stay_concat (loads : List Loading) (l : Loading) : Stay loads (loads ++ [l]) := by
  intro n m hn
  refine ⟨m, ?_, rfl, fun _ hFetched => hFetched⟩
  rw [List.getElem?_append_left (List.getElem?_eq_some_iff.mp hn).1]
  exact hn

theorem stay_map (loads : List Loading) {g : Loading → Loading} (h : ∀ l, Becomes l (g l)) :
    Stay loads (loads.map g) := by
  intro n m hn
  exact ⟨g m, by rw [List.getElem?_map, hn, Option.map_some], h m⟩

/-! ### One call more -/

theorem getElem?_concat {c call : Lookup κ} {i : Nat} (h : calls[i]? = some call) :
    (calls ++ [c])[i]? = some call := by
  rw [List.getElem?_append_left (List.getElem?_eq_some_iff.mp h).1]
  exact h

theorem waitsFor_concat (c : Lookup κ) (load : Nat) {i : Nat} (hi : i < calls.length) :
    waitsFor (calls ++ [c]) load i = waitsFor calls load i := by
  rw [waitsFor, waitsFor, List.getElem?_append_left hi]

theorem waiters_concat (c : Lookup κ) (load : Nat) :
    waiters (calls ++ [c]) load =
      waiters calls load ++ if c.load == load && !c.late then [calls.length] else [] := by
  have hLast : waitsFor (calls ++ [c]) load calls.length = (c.load == load && !c.late) := by
    rw [waitsFor, List.getElem?_concat_length]
    rfl
  rw [waiters, List.length_append, List.length_singleton, List.range_succ, List.filter_append,
    List.filter_singleton, hLast, waiters]
  congr 1
  · exact List.filter_congr fun i hi => waitsFor_concat c load (List.mem_range.mp hi)
  · cases c.load == load && !c.late <;> rfl

theorem Callers.append {numbers : List Nat} {callers : List κ} (h : Callers calls numbers callers)
    (more : List (Lookup κ)) : Callers (calls ++ more) numbers callers := by
  refine h.imp ?_
  rintro i caller ⟨call, hCall, hCaller⟩
  refine ⟨call, ?_, hCaller⟩
  rw [List.getElem?_append_left (List.getElem?_eq_some_iff.mp hCall).1]
  exact hCall

namespace Mirrors

theorem concat (h : Mirrors memo calls loads) (c : Lookup κ) : Mirrors memo (calls ++ [c]) loads :=
  { h with callers := fun load l e hLoad hFetched hEntry => (h.callers load l e hLoad hFetched hEntry).append _ }

theorem update (h : Mirrors memo calls loads) (hLoad : loads[load]? = some l)
    {f : RelationLoad κ → RelationLoad κ} (hKey : l'.key = l.key)
    (hOver : memo.index.get? l.key = some load → l.spent = false → l'.spent = false)
    (hLoaded : ∀ e, e.relation.isSome = l.loaded → (f e).relation.isSome = l'.loaded)
    (hCallers : ∀ e, l'.fetched = none → l.fetched = none ∧
      (Callers calls l.waiting e.waiting → Callers calls l'.waiting (f e).waiting)) :
    Mirrors (memo.update load f) calls (loads.set load l') where
  nodup := h.nodup
  length := by rw [RelationMemo.length_update, List.length_set, h.length]
  loaded n m hn := by
    rw [RelationMemo.relation?, RelationMemo.getElem?_update]
    rcases (getElem?_set_iff hLoad l' m n).mp hn with ⟨rfl, rfl⟩ | ⟨hne, hn⟩
    · have hOld := h.loaded n l hLoad
      have hLength := (List.getElem?_eq_some_iff.mp hLoad).1
      rw [← h.length] at hLength
      rw [RelationMemo.relation?, List.getElem?_eq_getElem hLength] at hOld
      rw [if_pos rfl, List.getElem?_eq_getElem hLength]
      exact hLoaded _ hOld
    · rw [if_neg hne.symm]
      exact h.loaded n m hn
  callers n m e hn hFetched hEntry := by
    rw [RelationMemo.getElem?_update] at hEntry
    rcases (getElem?_set_iff hLoad l' m n).mp hn with ⟨rfl, rfl⟩ | ⟨hne, hn⟩
    · rw [if_pos rfl] at hEntry
      obtain ⟨old, hOld, rfl⟩ := Option.map_eq_some_iff.mp hEntry
      obtain ⟨hRuns, hNow⟩ := hCallers old hFetched
      exact hNow (h.callers n l old hLoad hRuns hOld)
    · rw [if_neg hne.symm] at hEntry
      exact h.callers n m e hn hFetched hEntry
  indexed key n hn := by
    obtain ⟨m, hm, rfl, hmOver⟩ := h.indexed key n hn
    by_cases hSame : n = load
    · subst hSame
      obtain rfl : l = m := Option.some.inj (hLoad.symm.trans hm)
      exact ⟨l', (getElem?_set_iff hLoad l' l' n).mpr (.inl ⟨rfl, rfl⟩), hKey, hOver hn hmOver⟩
    · exact ⟨m, (getElem?_set_iff hLoad l' m n).mpr (.inr ⟨hSame, hm⟩), rfl, hmOver⟩

theorem filter (h : Mirrors memo calls loads) (p : String × Nat → Bool) :
    Mirrors { memo with index := memo.index.filter p } calls loads :=
  { h with
    nodup := (List.filter_sublist.map Prod.fst).nodup h.nodup
    indexed := by
      intro key load hIndex
      have hEntry := (List.mem_filter.mp (Assoc.mem_of_get? hIndex)).1
      exact h.indexed key load (Assoc.get?_of_mem h.nodup hEntry) }

theorem start (h : Mirrors memo calls loads) {key : String} {caller : κ} {c : Lookup κ}
    (hCaller : c.caller = caller) :
    Mirrors { index := memo.index.set key memo.loads.length, loads := memo.loads ++ [{ waiting := [caller] }] }
      (calls ++ [c]) (loads ++ [{ key, waiting := [calls.length] }]) where
  nodup := Assoc.nodup_keys_set h.nodup _ _
  length := by rw [List.length_append, List.length_append, h.length, List.length_singleton, List.length_singleton]
  loaded n m hn := by
    rcases Nat.lt_trichotomy n loads.length with hlt | rfl | hgt
    · rw [List.getElem?_append_left hlt] at hn
      rw [RelationMemo.relation?, List.getElem?_append_left (h.length ▸ hlt)]
      exact h.loaded n m hn
    · rw [List.getElem?_concat_length] at hn
      rw [RelationMemo.relation?, ← h.length, List.getElem?_concat_length]
      cases hn
      rfl
    · rw [List.getElem?_eq_none (by simp; omega)] at hn
      cases hn
  callers n m e hn hFetched hEntry := by
    rcases Nat.lt_trichotomy n loads.length with hlt | rfl | hgt
    · rw [List.getElem?_append_left hlt] at hn
      rw [List.getElem?_append_left (h.length ▸ hlt)] at hEntry
      exact (h.callers n m e hn hFetched hEntry).append _
    · rw [List.getElem?_concat_length] at hn
      rw [← h.length, List.getElem?_concat_length] at hEntry
      cases hn
      cases hEntry
      exact .cons ⟨c, List.getElem?_concat_length, hCaller⟩ .nil
    · rw [List.getElem?_eq_none (by simp; omega)] at hn
      cases hn
  indexed other n hn := by
    rw [Assoc.get?_set] at hn
    split at hn
    · next hSame =>
      obtain rfl := Option.some.inj hn
      rw [h.length]
      exact ⟨_, List.getElem?_concat_length, hSame, rfl⟩
    · obtain ⟨m, hm, hKey, hOver⟩ := h.indexed other n hn
      refine ⟨m, ?_, hKey, hOver⟩
      rw [List.getElem?_append_left (List.getElem?_eq_some_iff.mp hm).1]
      exact hm

theorem finish (h : Mirrors memo calls loads) (hLoad : loads[load]? = some l) (hFetched : l.fetched = none)
    {result : Except Error (List Pointer)} {callers : List κ} {memo' : RelationMemo κ}
    (hComplete : memo.complete l.key load result = (callers, memo')) :
    Mirrors memo' calls (loads.set load { l with fetched := some result }) ∧
      Callers calls l.waiting callers := by
  have hLength := (List.getElem?_eq_some_iff.mp hLoad).1
  rw [← h.length] at hLength
  have hEntry := List.getElem?_eq_getElem hLength
  have hCallers := h.callers load l _ hLoad hFetched hEntry
  cases result with
  | ok pointers =>
    rw [RelationMemo.complete, hEntry] at hComplete
    obtain ⟨rfl, rfl⟩ := Prod.mk.inj hComplete
    refine ⟨h.update hLoad rfl (fun _ hOver => ?_) (fun _ _ => rfl) fun _ hNone => ?_, hCallers⟩
    · simpa [Loading.spent, Loading.failed, hFetched] using hOver
    · cases hNone
  | error e =>
    rw [RelationMemo.complete, hEntry] at hComplete
    obtain ⟨rfl, rfl⟩ := Prod.mk.inj hComplete
    -- the key goes first: what has failed is not in the index
    have hErased : Mirrors { memo with index := memo.index.erase l.key } calls loads := h.filter _
    refine ⟨hErased.update hLoad rfl (fun hIndex _ => ?_) (fun _ hNone => ?_) fun _ hNone => ?_, hCallers⟩
    · rw [Assoc.get?_erase, if_pos rfl] at hIndex
      cases hIndex
    · simpa [Loading.loaded, hFetched] using hNone
    · cases hNone

theorem change (h : Mirrors memo calls loads) (n : Nat) (f : Relation → Relation) :
    Mirrors (memo.update n fun e => { e with relation := e.relation.map f }) calls loads where
  nodup := h.nodup
  length := by rw [RelationMemo.length_update, h.length]
  loaded m l hm := by
    rw [← h.loaded m l hm, RelationMemo.relation?, RelationMemo.relation?, RelationMemo.getElem?_update]
    split
    · cases memo.loads[m]? with
      | none => rfl
      | some e => exact Option.isSome_map
    · rfl
  callers m l e hm hFetched hEntry := by
    rw [RelationMemo.getElem?_update] at hEntry
    split at hEntry
    · obtain ⟨old, hOld, rfl⟩ := Option.map_eq_some_iff.mp hEntry
      exact h.callers m l old hm hFetched hOld
    · exact h.callers m l e hm hFetched hEntry
  indexed := h.indexed

theorem map (h : Mirrors memo calls loads) {g : Loading → Loading} (hKey : ∀ l, (g l).key = l.key)
    (hFetched : ∀ l, (g l).fetched = l.fetched) (hWaiting : ∀ l, (g l).waiting = l.waiting)
    (hOver : ∀ (load : Nat) (l : Loading), memo.index.get? l.key = some load → loads[load]? = some l →
      l.spent = false → (g l).spent = false) : Mirrors memo calls (loads.map g) where
  nodup := h.nodup
  length := by rw [List.length_map, h.length]
  loaded m l' hm := by
    rw [List.getElem?_map] at hm
    obtain ⟨l, hLoad, rfl⟩ := Option.map_eq_some_iff.mp hm
    rw [h.loaded m l hLoad, Loading.loaded, Loading.loaded, hFetched]
  callers m l' e hm hNone hEntry := by
    rw [List.getElem?_map] at hm
    obtain ⟨l, hLoad, rfl⟩ := Option.map_eq_some_iff.mp hm
    rw [hFetched] at hNone
    rw [hWaiting]
    exact h.callers m l e hLoad hNone hEntry
  indexed key n hn := by
    obtain ⟨l, hLoad, rfl, hLive⟩ := h.indexed key n hn
    refine ⟨g l, ?_, hKey l, hOver n l hn hLoad hLive⟩
    rw [List.getElem?_map, hLoad, Option.map_some]

theorem forget (h : Mirrors memo calls loads) (owner : Ref) :
    Mirrors (memo.forget owner) calls (loads.map (Loading.forget owner)) := by
  refine (h.filter _).map (fun _ => rfl) (fun _ => rfl) (fun _ => rfl) fun load l hIndex hLoad hOver => ?_
  have hStays := (List.mem_filter.mp (Assoc.mem_of_get? hIndex)).2
  have hLoaded := h.loaded load l hLoad
  rw [Loading.spent, Bool.or_eq_false_iff] at hOver ⊢
  refine ⟨?_, hOver.2⟩
  rw [Loading.forget]
  simp only [hLoaded] at hStays
  cases hPiece : Text.hasPiece (RelationMemo.ownerPiece owner).toList l.key.toList
  · simp [hOver.1]
  · simpa [hPiece, hOver.1] using hStays

theorem clear (h : Mirrors memo calls loads) : Mirrors memo.clear calls (loads.map Loading.drop) := by
  have hEmpty : Mirrors memo.clear calls loads :=
    { h with nodup := .nil, indexed := fun key load hIndex => (nomatch hIndex) }
  exact hEmpty.map (fun _ => rfl) (fun _ => rfl) (fun _ => rfl) fun load l hIndex => (nomatch hIndex)

end Mirrors

namespace Balanced

variable (h : Balanced given calls loads answering told) {c call : Lookup κ} {i : Nat}

include h

theorem lt_of_told (hi : i ∈ told) : i < calls.length := by
  have hMem := h.once.subset (List.mem_append_left _ (List.mem_append_left _ hi))
  exact List.mem_range.mp hMem

theorem told_concat (c : Lookup κ) (load : Nat) :
    told.filter (waitsFor (calls ++ [c]) load) = told.filter (waitsFor calls load) :=
  List.filter_congr fun _ hi => waitsFor_concat c load (h.lt_of_told hi)

theorem gives_stay {calls' : List (Lookup κ)} {loads' : List Loading}
    (hCalls : ∀ (i : Nat) (call : Lookup κ), calls[i]? = some call → calls'[i]? = some call)
    (hStay : Stay loads loads') : List.Forall₂ (Gives calls' loads') told given := by
  refine h.given.imp ?_
  rintro i g ⟨call, l, result, hCall, hLoad, hFetched, rfl⟩
  obtain ⟨l', hLoad', -, hSame⟩ := hStay _ _ hLoad
  exact ⟨call, l', result, hCalls i call hCall, hLoad', hSame result hFetched, rfl⟩

theorem keyed_stay {loads' : List Loading} (hStay : Stay loads loads') :
    ∀ call ∈ calls, ∃ l, loads'[call.load]? = some l ∧ l.key = call.key ∧
      (call.late = true → l.loaded = true) := by
  intro call hCall
  obtain ⟨l, hLoad, hKey, hLoaded⟩ := h.keyed call hCall
  obtain ⟨l', hLoad', hBecomes⟩ := hStay _ _ hLoad
  exact ⟨l', hLoad', hBecomes.1.trans hKey, fun hLate => hBecomes.loaded (hLoaded hLate)⟩

theorem waitsFor_fresh (i : Nat) : waitsFor calls loads.length i = false := by
  rw [waitsFor]
  cases hCall : calls[i]? with
  | none => rfl
  | some call =>
    obtain ⟨l, hLoad, -⟩ := h.keyed call (List.mem_of_getElem? hCall)
    have hLt := (List.getElem?_eq_some_iff.mp hLoad).1
    simp [Nat.ne_of_lt hLt]

theorem find (hLate : c.late = true) (hLoad : loads[c.load]? = some l) (hKey : l.key = c.key)
    (hLoaded : l.loaded = true) :
    Balanced given (calls ++ [c]) loads (answering ++ [calls.length]) told where
  once := by
    rw [List.length_append, List.length_singleton, List.range_succ, List.perm_iff_count]
    intro n
    have hCount := h.once.count_eq n
    simp only [List.count_append] at hCount ⊢
    omega
  given := h.gives_stay (fun _ _ => getElem?_concat) (.refl loads)
  order m l' hm := by
    rw [h.told_concat, waiters_concat, hLate]
    simpa using h.order m l' hm
  atOnce j hj := by
    rcases List.mem_append.mp hj with hj | hj
    · obtain ⟨call, hCall, hCallLate⟩ := h.atOnce j hj
      exact ⟨call, getElem?_concat hCall, hCallLate⟩
    · rw [List.mem_singleton.mp hj]
      exact ⟨c, List.getElem?_concat_length, hLate⟩
  keyed call hCall := by
    rcases List.mem_append.mp hCall with hCall | hCall
    · exact h.keyed call hCall
    · rw [List.mem_singleton.mp hCall]
      exact ⟨l, hLoad, hKey, fun _ => hLoaded⟩

theorem answer {before after : List Nat} (hAnswering : answering = before ++ i :: after)
    (hCall : calls[i]? = some call) :
    Balanced (given ++ [(call.caller, .ok call.load)]) calls loads (before ++ after) (told ++ [i]) := by
  subst hAnswering
  obtain ⟨found, hFound, hLate⟩ := h.atOnce i (by simp)
  obtain rfl : call = found := Option.some.inj (hCall.symm.trans hFound)
  refine { h with once := ?_, given := ?_, order := fun m l hm => ?_, atOnce := fun j hj => h.atOnce j ?_ }
  · refine .trans ?_ h.once
    rw [List.perm_iff_count]
    intro n
    simp only [List.count_append, List.count_cons, List.count_nil]
    omega
  · obtain ⟨l, hLoad, -, hLoaded⟩ := h.keyed call (List.mem_of_getElem? hCall)
    have hFetched : ∃ pointers, l.fetched = some (.ok pointers) := by
      have hComplete := hLoaded hLate
      rw [Loading.loaded] at hComplete
      split at hComplete
      · next pointers hFetched => exact ⟨pointers, hFetched⟩
      · cases hComplete
    obtain ⟨pointers, hFetched⟩ := hFetched
    exact List.rel_append h.given (.cons ⟨call, l, _, hCall, hLoad, hFetched, rfl⟩ .nil)
  · have hNever : waitsFor calls m i = false := by
      rw [waitsFor, hCall]
      simp [hLate]
    rw [List.filter_append, List.filter_singleton, hNever]
    simpa using h.order m l hm
  · simp only [List.mem_append, List.mem_cons] at hj ⊢
    tauto

theorem join (hLoad : loads[load]? = some l) (hCallLoad : c.load = load) (hKey : l.key = c.key)
    (hLate : c.late = false) :
    Balanced given (calls ++ [c]) (loads.set load { l with waiting := l.waiting ++ [calls.length] })
      answering told where
  once := by
    have hOld := (waiting_perm hLoad).count_eq
    have hNew := (waiting_perm_set hLoad { l with waiting := l.waiting ++ [calls.length] }).count_eq
    rw [List.length_append, List.length_singleton, List.range_succ, List.perm_iff_count]
    intro n
    have hCount := h.once.count_eq n
    specialize hOld n
    specialize hNew n
    simp only [List.count_append] at hCount hOld hNew ⊢
    omega
  given := h.gives_stay (fun _ _ => getElem?_concat) (stay_set hLoad (becomes_waiting l _))
  order n m hn := by
    rw [h.told_concat, waiters_concat, hCallLoad, hLate]
    rcases (getElem?_set_iff hLoad _ m n).mp hn with ⟨rfl, rfl⟩ | ⟨hne, hn⟩
    · rw [← h.order n l hLoad]
      simp
    · rw [h.order n m hn]
      simp [hne.symm]
  atOnce j hj := by
    obtain ⟨call, hCall, hCallLate⟩ := h.atOnce j hj
    exact ⟨call, getElem?_concat hCall, hCallLate⟩
  keyed call hCall := by
    rcases List.mem_append.mp hCall with hCall | hCall
    · exact h.keyed_stay (stay_set hLoad (becomes_waiting l _)) call hCall
    · rw [List.mem_singleton.mp hCall]
      refine ⟨_, (getElem?_set_iff hLoad _ _ c.load).mpr (.inl ⟨hCallLoad, rfl⟩), hKey, fun hTrue => ?_⟩
      rw [hLate] at hTrue
      cases hTrue

theorem start (hCallLoad : c.load = loads.length) (hLate : c.late = false) :
    Balanced given (calls ++ [c]) (loads ++ [{ key := c.key, waiting := [calls.length] }]) answering told where
  once := by
    rw [List.length_append, List.length_singleton, List.range_succ, List.perm_iff_count]
    intro n
    have hCount := h.once.count_eq n
    simp only [List.count_append, List.flatMap_append, List.flatMap_singleton] at hCount ⊢
    omega
  given := h.gives_stay (fun _ _ => getElem?_concat) (stay_concat loads _)
  order n m hn := by
    rw [h.told_concat, waiters_concat, hCallLoad, hLate]
    rcases Nat.lt_trichotomy n loads.length with hlt | rfl | hgt
    · rw [List.getElem?_append_left hlt] at hn
      rw [h.order n m hn]
      simp [Nat.ne_of_gt hlt]
    · rw [List.getElem?_concat_length] at hn
      cases hn
      rw [waiters, List.filter_eq_nil_iff.mpr fun i _ => by simp [h.waitsFor_fresh i],
        List.filter_eq_nil_iff.mpr fun i _ => by simp [h.waitsFor_fresh i]]
      simp
    · rw [List.getElem?_eq_none (by simp; omega)] at hn
      cases hn
  atOnce j hj := by
    obtain ⟨call, hCall, hCallLate⟩ := h.atOnce j hj
    exact ⟨call, getElem?_concat hCall, hCallLate⟩
  keyed call hCall := by
    rcases List.mem_append.mp hCall with hCall | hCall
    · exact h.keyed_stay (stay_concat loads _) call hCall
    · rw [List.mem_singleton.mp hCall, hCallLoad]
      refine ⟨_, List.getElem?_concat_length, rfl, fun hTrue => ?_⟩
      rw [hLate] at hTrue
      cases hTrue

theorem finish (hLoad : loads[load]? = some l) (hFetched : l.fetched = none)
    (result : Except Error (List Pointer)) :
    Balanced given calls (loads.set load { l with fetched := some result }) answering told :=
  have hStay : Stay loads _ := stay_set hLoad (becomes_fetched hFetched result)
  { h with
    once := by
      refine .trans (.append_left _ ?_) h.once
      exact (waiting_perm_set hLoad _).trans (waiting_perm hLoad).symm
    given := h.gives_stay (fun _ _ hCall => hCall) hStay
    order := fun n m hn => by
      rcases (getElem?_set_iff hLoad _ m n).mp hn with ⟨rfl, rfl⟩ | ⟨-, hn⟩
      · exact h.order n l hLoad
      · exact h.order n m hn
    keyed := h.keyed_stay hStay }

theorem deliver {result : Except Error (List Pointer)} {rest : List Nat} (hLoad : loads[load]? = some l)
    (hFetched : l.fetched = some result) (hWaiting : l.waiting = i :: rest) (hCall : calls[i]? = some call) :
    Balanced (given ++ [(call.caller, result.map fun _ => load)]) calls
      (loads.set load { l with waiting := rest }) answering (told ++ [i]) := by
  have hStay : Stay loads (loads.set load { l with waiting := rest }) :=
    stay_set hLoad (becomes_waiting l rest)
  have hWaits : waitsFor calls load i = true := by
    have hMem : i ∈ waiters calls load := by
      rw [← h.order load l hLoad, hWaiting]
      simp
    exact (List.mem_filter.mp hMem).2
  have hCallLoad : call.load = load ∧ call.late = false := by
    rw [waitsFor, hCall] at hWaits
    simpa using hWaits
  refine { h with once := ?_, given := ?_, order := fun n m hn => ?_, keyed := h.keyed_stay hStay }
  · have hOld := (waiting_perm hLoad).count_eq
    have hNew := (waiting_perm_set hLoad { l with waiting := rest }).count_eq
    refine .trans ?_ h.once
    rw [List.perm_iff_count]
    intro n
    specialize hOld n
    specialize hNew n
    rw [hWaiting] at hOld
    simp only [List.count_append, List.count_cons, List.count_nil] at hOld hNew ⊢
    omega
  · obtain ⟨l', hLoad', -, hSame⟩ := hStay load l hLoad
    refine List.rel_append (h.gives_stay (fun _ _ hCall => hCall) hStay) (.cons ?_ .nil)
    refine ⟨call, l', result, hCall, ?_, hSame result hFetched, ?_⟩
    · rw [hCallLoad.1]
      exact hLoad'
    · rw [hCallLoad.1]
  · rw [List.filter_append, List.filter_singleton]
    rcases (getElem?_set_iff hLoad _ m n).mp hn with ⟨rfl, rfl⟩ | ⟨hne, hn⟩
    · rw [hWaits, ← h.order n l hLoad, hWaiting]
      simp
    · have hOther : waitsFor calls n i = false := by
        rw [waitsFor, hCall]
        simp [hCallLoad.1, hne.symm]
      rw [hOther, ← h.order n m hn]
      simp

theorem map {g : Loading → Loading} (hBecomes : ∀ l, Becomes l (g l))
    (hWaiting : ∀ l, (g l).waiting = l.waiting) : Balanced given calls (loads.map g) answering told :=
  have hStay := stay_map loads hBecomes
  { h with
    once := by
      simp only [List.flatMap_map, hWaiting]
      exact h.once
    given := h.gives_stay (fun _ _ hCall => hCall) hStay
    order := fun n m hn => by
      rw [List.getElem?_map] at hn
      obtain ⟨l, hLoad, rfl⟩ := Option.map_eq_some_iff.mp hn
      rw [hWaiting]
      exact h.order n l hLoad
    keyed := h.keyed_stay hStay }

end Balanced

namespace Sole

variable (h : Sole memo loads)

include h

theorem set {memo' : RelationMemo κ} (hLoad : loads[load]? = some l) (hKey : l'.key = l.key)
    (hOver : l.spent = true → l'.spent = true) (hKept : l'.fetched = none → l.fetched = none ∧
      l'.dropped = l.dropped)
    (hIndex : ∀ (n : Nat) (m : Loading), (loads.set load l')[n]? = some m → m.spent = false →
      memo.index.get? m.key = some n → memo'.index.get? m.key = some n) :
    Sole memo' (loads.set load l') where
  index n m hn hLive := by
    refine hIndex n m hn hLive ?_
    rcases (getElem?_set_iff hLoad l' m n).mp hn with ⟨rfl, rfl⟩ | ⟨-, hn⟩
    · rw [hKey]
      refine h.index n l hLoad (Bool.eq_false_iff.mpr fun hTrue => ?_)
      rw [hOver hTrue] at hLive
      cases hLive
    · exact h.index n m hn hLive
  again n n' m m' hn hn' hLt hSame := by
    obtain ⟨hNumber, hm⟩ | ⟨-, hOld⟩ := (getElem?_set_iff hLoad l' m n).mp hn <;>
      obtain ⟨hNumber', hm'⟩ | ⟨-, hOld'⟩ := (getElem?_set_iff hLoad l' m' n').mp hn'
    · omega
    · rw [hNumber] at hLt
      rw [hm, hKey] at hSame
      rw [hm]
      exact hOver (h.again load n' l m' hLoad hOld' hLt hSame)
    · rw [hNumber'] at hLt
      rw [hm', hKey] at hSame
      exact h.again n load m l hOld hLoad hLt hSame
    · exact h.again n n' m m' hOld hOld' hLt hSame
  kept m hm hNone := by
    obtain ⟨n, hn⟩ := List.getElem?_of_mem hm
    rcases (getElem?_set_iff hLoad l' m n).mp hn with ⟨rfl, rfl⟩ | ⟨-, hn⟩
    · obtain ⟨hRuns, hDropped⟩ := hKept hNone
      rw [hDropped]
      exact h.kept l (List.mem_of_getElem? hLoad) hRuns
    · exact h.kept m (List.mem_of_getElem? hn) hNone

/-- A load starts when the index has no other of its key, so those before it are over. -/
theorem start {key : String} (hIndex : memo.index.get? key = none) (waiting : List Nat)
    {memo' : RelationMemo κ} (hMemo : memo'.index = memo.index.set key loads.length) :
    Sole memo' (loads ++ [{ key, waiting := waiting }]) where
  index n m hn hLive := by
    rw [hMemo, Assoc.get?_set]
    rcases Nat.lt_trichotomy n loads.length with hlt | rfl | hgt
    · rw [List.getElem?_append_left hlt] at hn
      have hOld := h.index n m hn hLive
      rw [if_neg, hOld]
      rintro rfl
      rw [hIndex] at hOld
      cases hOld
    · rw [List.getElem?_concat_length] at hn
      cases hn
      exact if_pos rfl
    · rw [List.getElem?_eq_none (by simp; omega)] at hn
      cases hn
  again n n' m m' hn hn' hLt hSame := by
    have hLength := (List.getElem?_eq_some_iff.mp hn').1
    rw [List.length_append, List.length_singleton] at hLength
    rw [List.getElem?_append_left (by omega)] at hn
    rcases Nat.lt_or_eq_of_le (Nat.le_of_lt_succ hLength) with hlt | rfl
    · rw [List.getElem?_append_left hlt] at hn'
      exact h.again n n' m m' hn hn' hLt hSame
    · rw [List.getElem?_concat_length] at hn'
      cases hn'
      refine Bool.of_not_eq_false fun hLive => ?_
      have hOld := h.index n m hn hLive
      rw [hSame, hIndex] at hOld
      cases hOld
  kept m hm hNone := by
    rcases List.mem_append.mp hm with hm | hm
    · exact h.kept m hm hNone
    · rw [List.mem_singleton.mp hm]

theorem finish (hLoad : loads[load]? = some l) (hFetched : l.fetched = none)
    {result : Except Error (List Pointer)} {callers : List κ} {memo' : RelationMemo κ}
    (hComplete : memo.complete l.key load result = (callers, memo')) :
    Sole memo' (loads.set load { l with fetched := some result }) := by
  have hKept := h.kept l (List.mem_of_getElem? hLoad) hFetched
  have hRuns : l.spent = false := by simp [Loading.spent, Loading.failed, hFetched, hKept]
  refine h.set hLoad rfl (fun hOver => ?_) (fun hNone => ?_) fun n m hn hLive hIndex => ?_
  · rw [hRuns] at hOver
    cases hOver
  · cases hNone
  cases result with
  | ok pointers =>
    rw [RelationMemo.complete] at hComplete
    obtain ⟨-, rfl⟩ := Prod.mk.inj hComplete
    exact hIndex
  | error e =>
    rw [RelationMemo.complete] at hComplete
    obtain ⟨-, rfl⟩ := Prod.mk.inj hComplete
    rcases (getElem?_set_iff hLoad _ m n).mp hn with ⟨-, rfl⟩ | ⟨hne, -⟩
    · simp [Loading.spent, Loading.failed] at hLive
    · -- the index knew one load of the key, which is the one that has failed
      rw [Assoc.get?_erase, if_neg, hIndex]
      intro hSame
      rw [← hSame, h.index load l hLoad hRuns] at hIndex
      exact hne (Option.some.inj hIndex).symm

theorem forget (hMirrors : Mirrors memo calls loads) (owner : Ref) :
    Sole (memo.forget owner) (loads.map (Loading.forget owner)) where
  index n m hn hLive := by
    rw [List.getElem?_map] at hn
    obtain ⟨l, hLoad, rfl⟩ := Option.map_eq_some_iff.mp hn
    simp only [Loading.spent, Loading.forget, Bool.or_eq_false_iff] at hLive
    obtain ⟨⟨hDropped, hStays⟩, hFailed⟩ := hLive
    have hIndex := h.index n l hLoad (by
      rw [Loading.spent, hDropped, Bool.false_or]
      exact hFailed)
    refine Assoc.get?_of_mem (hMirrors.forget owner).nodup (List.mem_filter.mpr ⟨Assoc.mem_of_get? hIndex, ?_⟩)
    simp only [hMirrors.loaded n l hLoad, Loading.forget, Bool.not_eq_true']
    rw [Bool.and_comm]
    exact hStays
  again n n' m m' hn hn' hLt hSame := by
    rw [List.getElem?_map] at hn hn'
    obtain ⟨l, hLoad, rfl⟩ := Option.map_eq_some_iff.mp hn
    obtain ⟨l', hLoad', rfl⟩ := Option.map_eq_some_iff.mp hn'
    have hOver := h.again n n' l l' hLoad hLoad' hLt hSame
    rw [Loading.spent, Bool.or_eq_true] at hOver ⊢
    refine hOver.imp_left fun hDropped => ?_
    simp [Loading.forget, hDropped]
  kept m hm hNone := by
    obtain ⟨l, hl, rfl⟩ := List.mem_map.mp hm
    have hRuns : l.fetched = none := hNone
    simp [Loading.forget, Loading.loaded, hRuns, h.kept l hl hRuns]

end Sole

/-! ### Steps and runs -/

namespace Sound

variable {log : α → List (κ × Except Error Nat)} {s : Session κ α} {t t' : Lookups κ α}

theorem start (hRelations : s.relations = {}) (hLog : log s.app = []) : Sound log (Lookups.start s) where
  mirrors := by
    rw [Lookups.start, hRelations]
    exact ⟨.nil, rfl, by simp, by simp, by simp⟩
  balanced := by
    rw [Lookups.start, hLog]
    exact ⟨.refl _, .nil, by simp, by simp, by simp⟩
  sole _ := ⟨by simp [Lookups.start], by simp [Lookups.start], by simp [Lookups.start]⟩

theorem step (h : Sound log t) (hStep : Step log t t') : Sound log t' := by
  obtain ⟨hMirrors, hBalanced, hSole⟩ := h
  cases hStep with
  | @find key caller load memo hRequest =>
    obtain ⟨_, hAnswer, rfl, hLoaded⟩ | ⟨_, hAnswer, -⟩ | ⟨hAnswer, -⟩ := RelationMemo.request_cases hRequest
    · cases hAnswer
      obtain ⟨hIndex, hComplete⟩ := RelationMemo.loaded?_eq_some_iff.mp hLoaded
      obtain ⟨l, hLoad, hKey, -⟩ := hMirrors.indexed key load hIndex
      rw [hMirrors.loaded load l hLoad] at hComplete
      exact ⟨hMirrors.concat _, hBalanced.find rfl hLoad hKey hComplete, hSole⟩
    · cases hAnswer
    · cases hAnswer
  | answer hAnswering hCall hTold =>
    refine ⟨?_, ?_, ?_⟩
    · rw [hTold.relations]
      exact hMirrors
    · rw [hTold.given]
      exact hBalanced.answer hAnswering hCall
    · rw [hTold.relations]
      exact hSole
  | @join key caller load memo l hRequest hIndex hLoad =>
    obtain ⟨_, hAnswer, -⟩ | ⟨load', -, hIndex', hRuns, rfl⟩ | ⟨hAnswer, -⟩ := RelationMemo.request_cases hRequest
    · cases hAnswer
    · obtain rfl : load = load' := Option.some.inj (hIndex.symm.trans hIndex')
      obtain ⟨l', hLoad', hKey, hLive⟩ := hMirrors.indexed key load hIndex
      obtain rfl : l = l' := Option.some.inj (hLoad.symm.trans hLoad')
      have hMember : ∃ call, (t.calls ++ [(⟨key, caller, load, false⟩ : Lookup κ)])[t.calls.length]? = some call ∧
          call.caller = caller := ⟨_, List.getElem?_concat_length, rfl⟩
      refine ⟨?_, hBalanced.join hLoad rfl hKey rfl, fun hCleared => ?_⟩
      · refine (hMirrors.concat _).update hLoad rfl (fun _ hOver => hOver) (fun _ hLoaded => hLoaded) ?_
        exact fun e hNone => ⟨hNone, fun hCallers => List.rel_append hCallers (.cons hMember .nil)⟩
      · exact (hSole hCleared).set hLoad rfl (fun hOver => hOver) (fun hNone => ⟨hNone, rfl⟩) fun _ _ _ _ h => h
    · cases hAnswer
  | @start key caller load memo hRequest =>
    obtain ⟨_, hAnswer, -⟩ | ⟨_, hAnswer, -⟩ | ⟨hAnswer, hIndex, rfl⟩ := RelationMemo.request_cases hRequest
    · cases hAnswer
    · cases hAnswer
    · cases hAnswer
      refine ⟨hMirrors.start rfl, hBalanced.start hMirrors.length rfl, fun hCleared => ?_⟩
      exact (hSole hCleared).start hIndex _ (congrArg _ hMirrors.length)
  | finish hLoad hFetched hComplete =>
    exact ⟨(hMirrors.finish hLoad hFetched hComplete).1, hBalanced.finish hLoad hFetched _,
      fun hCleared => (hSole hCleared).finish hLoad hFetched hComplete⟩
  | @deliver load l result i rest call s hLoad hFetched hWaiting hCall hTold =>
    refine ⟨?_, ?_, fun hCleared => ?_⟩
    · rw [hTold.relations]
      have hSame : Mirrors (t.session.relations.update load id) t.calls
          (t.loads.set load { l with waiting := rest }) := by
        refine hMirrors.update hLoad rfl (fun _ hOver => hOver) (fun _ hLoaded => hLoaded) fun _ hNone => ?_
        rw [hFetched] at hNone
        cases hNone
      rw [RelationMemo.update, List.modify_id] at hSame
      exact hSame
    · rw [hTold.given]
      exact hBalanced.deliver hLoad hFetched hWaiting hCall
    · rw [hTold.relations]
      exact (hSole hCleared).set hLoad rfl (fun hOver => hOver) (fun hNone => ⟨hNone, rfl⟩) fun _ _ _ _ h => h
  | change load f => exact ⟨hMirrors.change load f, hBalanced, fun hCleared => { hSole hCleared with }⟩
  | forget owner =>
    exact ⟨hMirrors.forget owner, hBalanced.map (fun _ => ⟨rfl, fun _ hFetched => hFetched⟩) fun _ => rfl,
      fun hCleared => (hSole hCleared).forget hMirrors owner⟩
  | clear =>
    exact ⟨hMirrors.clear, hBalanced.map (fun _ => ⟨rfl, fun _ hFetched => hFetched⟩) fun _ => rfl,
      fun hCleared => by cases hCleared⟩
  | other hRelays =>
    refine ⟨?_, ?_, ?_⟩
    · rw [hRelays.relations]
      exact hMirrors
    · rw [hRelays.given, List.append_nil]
      exact hBalanced
    · rw [hRelays.relations]
      exact hSole

theorem run (h : Sound log t) (hRun : Run log t t') : Sound log t' := by
  induction hRun with
  | refl => exact h
  | tail _ hStep ih => exact ih.step hStep

theorem accounted (h : Sound log t) : t.Accounted log where
  once := h.balanced.once
  given := h.balanced.given
  order := h.balanced.order
  untold load l hLoad hRuns := by
    refine List.filter_eq_nil_iff.mpr fun i hi hWaits => ?_
    -- who was told was given an outcome, and the load has none
    obtain ⟨n, hn, rfl⟩ := List.getElem_of_mem hi
    obtain ⟨call, l', result, hCall, hLoad', hFetched, -⟩ :=
      h.balanced.given.get hn (h.balanced.given.length_eq ▸ hn)
    rw [List.get_eq_getElem] at hCall
    rw [waitsFor, hCall] at hWaits
    obtain ⟨hSame, -⟩ : call.load = load ∧ call.late = false := by simpa using hWaits
    rw [hSame, hLoad, Option.some.injEq] at hLoad'
    rw [← hLoad', hRuns] at hFetched
    cases hFetched
  atOnce := h.balanced.atOnce
  keyed := h.balanced.keyed
  memoized := h.mirrors.loaded

theorem starts_iff (h : Sound log t) (hCleared : t.cleared = false) (key : String) (caller : κ) :
    (∃ load, (t.session.relations.request key caller).1 = .start load) ↔
      ∀ l ∈ t.loads, l.key = key → l.spent = true := by
  rw [RelationMemo.starts_iff]
  constructor
  · rintro hIndex l hl rfl
    obtain ⟨load, hLoad⟩ := List.getElem?_of_mem hl
    refine Bool.of_not_eq_false fun hLive => ?_
    rw [(h.sole hCleared).index load l hLoad hLive] at hIndex
    cases hIndex
  · intro hOver
    refine Option.eq_none_iff_forall_ne_some.mpr fun load hIndex => ?_
    obtain ⟨l, hLoad, hKey, hLive⟩ := h.mirrors.indexed key load hIndex
    rw [hOver l (List.mem_of_getElem? hLoad) hKey] at hLive
    cases hLive

theorem singleFlight (h : Sound log t) (hCleared : t.cleared = false) : t.SingleFlight := by
  have hSole := h.sole hCleared
  have hRuns : ∀ l ∈ t.loads, l.fetched = none → l.spent = false := fun l hl hNone => by
    simp [Loading.spent, Loading.failed, hNone, hSole.kept l hl hNone]
  refine ⟨fun load load' l l' hLoad hLoad' hNone hNone' hKey => ?_, hSole.again, hSole.kept,
    h.starts_iff hCleared, fun load l hLoad hFailed hLast caller => ?_⟩
  · have hIndex := hSole.index load l hLoad (hRuns l (List.mem_of_getElem? hLoad) hNone)
    have hIndex' := hSole.index load' l' hLoad' (hRuns l' (List.mem_of_getElem? hLoad') hNone')
    rw [hKey, hIndex'] at hIndex
    exact (Option.some.inj hIndex).symm
  · refine (h.starts_iff hCleared _ caller).mpr fun l' hl' hKey => ?_
    obtain ⟨load', hLoad'⟩ := List.getElem?_of_mem hl'
    rcases Nat.lt_or_eq_of_le (hLast load' l' hLoad' hKey) with hLt | rfl
    · exact hSole.again load' load l' l hLoad' hLoad hLt hKey
    · obtain rfl : l = l' := Option.some.inj (hLoad.symm.trans hLoad')
      simp [Loading.spent, hFailed]

end Sound

end RecordCache.Lookups
