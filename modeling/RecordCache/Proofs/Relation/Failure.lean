import RecordCache.Proofs.Relation.Answers

/-!
# What a failed load forgets

A load that fails takes its key out of the index, whatever the key stands for by then. It is another load
only after the memo was cleared, and then a later one: the index knows the last load of each key.
-/

namespace RecordCache

variable {κ α : Type}

/-- The second memo has forgotten the load, and nothing else. -/
structure RelationMemo.ForgetsOnly (load : Nat) (m m' : RelationMemo κ) : Prop where
  index : ∀ key other, m'.index.get? key = some other ↔ m.index.get? key = some other ∧ other ≠ load
  loads : ∀ other ≠ load, m'.loads[other]? = m.loads[other]?

theorem RelationMemo.get?_of_failed {m memo : RelationMemo κ} {key : String} {load : Nat} {e : Error} {callers : List κ}
    (h : m.complete key load (.error e) = (callers, memo)) (name : String) :
    memo.index.get? name = if key = name then none else m.index.get? name := by
  obtain ⟨-, rfl⟩ := Prod.mk.inj h
  exact Assoc.get?_erase m.index key name

namespace Lookups

variable {log : α → List (κ × Except Error Nat)} {s : Session κ α} {t t' : Lookups κ α} {memo : RelationMemo κ}
  {keys : List String} {key : String} {load : Nat} {l : Loading}

/-! ### The last load of a key -/

/-- No load of a key came after the one that it stands for. -/
def Latest (index : Fields Nat) (keys : List String) : Prop :=
  ∀ key load, index.get? key = some load → ∀ other, keys[other]? = some key → other ≤ load

theorem Latest.shrink {index index' : Fields Nat} (h : Latest index keys)
    (hIndex : ∀ key load, index'.get? key = some load → index.get? key = some load) : Latest index' keys :=
  fun key load hKey => h key load (hIndex key load hKey)

theorem Latest.start {index : Fields Nat} (h : Latest index keys) (key : String) :
    Latest (index.set key keys.length) (keys ++ [key]) := by
  intro name load hName other hOther
  have hLt := (List.getElem?_eq_some_iff.mp hOther).1
  rw [List.length_append, List.length_singleton] at hLt
  rw [Assoc.get?_set] at hName
  split at hName
  · cases hName
    exact Nat.le_of_lt_succ hLt
  · next hne =>
    rcases Nat.lt_or_eq_of_le (Nat.le_of_lt_succ hLt) with hlt | rfl
    · rw [List.getElem?_append_left hlt] at hOther
      exact h name load hName other hOther
    · rw [List.getElem?_concat_length] at hOther
      exact absurd (Option.some.inj hOther) hne

theorem keys_set (hLoad : t.loads[load]? = some l) {l' : Loading} (hKey : l'.key = l.key) :
    (t.loads.set load l').map (·.key) = t.loads.map (·.key) := by
  refine List.ext_getElem? fun n => ?_
  rw [List.getElem?_map, List.getElem?_map]
  by_cases hSame : load = n
  · subst hSame
    rw [List.getElem?_set_self (List.getElem?_eq_some_iff.mp hLoad).1, hLoad]
    exact congrArg some hKey
  · rw [List.getElem?_set_ne hSame]

theorem step_index (hSound : Sound log t) (hStep : Step log t t') :
    (∃ key, t'.loads.map (·.key) = t.loads.map (·.key) ++ [key] ∧
      t'.session.relations.index = t.session.relations.index.set key t.loads.length) ∨
    t'.loads.map (·.key) = t.loads.map (·.key) ∧
      ∀ key load, t'.session.relations.index.get? key = some load → t.session.relations.index.get? key = some load := by
  cases hStep with
  | start hRequest =>
    obtain ⟨_, hAnswer, -⟩ | ⟨_, hAnswer, -⟩ | ⟨-, -, rfl⟩ := RelationMemo.request_cases hRequest
    · cases hAnswer
    · cases hAnswer
    · exact .inl ⟨_, by simp, congrArg _ hSound.mirrors.length⟩
  | find hRequest =>
    obtain ⟨_, -, rfl, -⟩ | ⟨_, hAnswer, -⟩ | ⟨hAnswer, -⟩ := RelationMemo.request_cases hRequest
    · exact .inr ⟨rfl, fun _ _ h => h⟩
    · cases hAnswer
    · cases hAnswer
  | join hRequest _ hLoad =>
    obtain ⟨_, hAnswer, -⟩ | ⟨_, -, -, -, rfl⟩ | ⟨hAnswer, -⟩ := RelationMemo.request_cases hRequest
    · cases hAnswer
    · exact .inr ⟨keys_set hLoad rfl, fun _ _ h => h⟩
    · cases hAnswer
  | @finish load l result callers memo hLoad _ hComplete =>
    refine .inr ⟨keys_set hLoad rfl, fun key load h => ?_⟩
    cases result with
    | ok pointers =>
      obtain ⟨-, rfl⟩ := Prod.mk.inj hComplete
      exact h
    | error e =>
      have hKept : memo.index.get? key = some load := h
      rw [RelationMemo.get?_of_failed hComplete] at hKept
      split at hKept
      · cases hKept
      · exact hKept
  | answer _ _ hTold => exact .inr ⟨rfl, fun _ _ h => by rwa [hTold.relations] at h⟩
  | deliver hLoad _ _ _ hTold => exact .inr ⟨keys_set hLoad rfl, fun _ _ h => by rwa [hTold.relations] at h⟩
  | other hRelays => exact .inr ⟨rfl, fun _ _ h => by rwa [hRelays.relations] at h⟩
  | change => exact .inr ⟨rfl, fun _ _ h => h⟩
  | forget owner =>
    refine .inr ⟨List.map_map, fun key load h => ?_⟩
    exact Assoc.get?_of_mem hSound.mirrors.nodup (List.mem_filter.mp (Assoc.mem_of_get? h)).1
  | clear => exact .inr ⟨List.map_map, fun _ _ h => nomatch h⟩

theorem Latest.run (hSound : Sound log t) (h : Latest t.session.relations.index (t.loads.map (·.key)))
    (hRun : Run log t t') : Latest t'.session.relations.index (t'.loads.map (·.key)) := by
  induction hRun with
  | refl => exact h
  | tail hBefore hStep ih =>
    obtain ⟨key, hKeys, hIndex⟩ | ⟨hKeys, hIndex⟩ := step_index (hSound.run hBefore) hStep
    · rw [hKeys, hIndex]
      have hStart := ih.start key
      rwa [List.length_map] at hStart
    · rw [hKeys]
      exact ih.shrink hIndex

/-! ### A failure -/

section Failure

variable {e : Error} {callers : List κ} (hLoad : t.loads[load]? = some l)
  (hComplete : t.session.relations.complete l.key load (.error e) = (callers, memo))

include hLoad hComplete

theorem forgetsOnly_of_failed (hSound : Sound log t) :
    RelationMemo.ForgetsOnly load t.session.relations memo ↔
      ∀ other, t.session.relations.index.get? l.key = some other → other = load := by
  have hIndex := RelationMemo.get?_of_failed hComplete
  constructor
  · intro h other hOther
    by_contra hne
    have hKept := (h.index l.key other).mpr ⟨hOther, hne⟩
    rw [hIndex, if_pos rfl] at hKept
    cases hKept
  · intro hOnly
    refine ⟨fun key other => ?_, fun other hne => ?_⟩
    · rw [hIndex]
      by_cases hSame : l.key = key
      · subst hSame
        rw [if_pos rfl]
        exact ⟨fun h => (nomatch h), fun h => (h.2 (hOnly other h.1)).elim⟩
      · rw [if_neg hSame]
        refine ⟨fun hOther => ⟨hOther, ?_⟩, And.left⟩
        -- the load itself stands for its own key only
        rintro rfl
        obtain ⟨l', hLoad', hKey, -⟩ := hSound.mirrors.indexed key other hOther
        cases hLoad.symm.trans hLoad'
        exact hSame hKey
    · obtain ⟨-, rfl⟩ := Prod.mk.inj hComplete
      exact (RelationMemo.getElem?_update other).trans (if_neg hne.symm)

/-- A load that fails forgets itself alone exactly when its key does not stand for another one by then. That one,
complete or running, was started later, after the memo was cleared, and without need another one starts next. -/
theorem forgetsOnly_iff (hRelations : s.relations = {}) (hLog : log s.app = []) (hRun : Run log (start s) t)
    (hRuns : l.fetched = none) :
    (RelationMemo.ForgetsOnly load t.session.relations memo ↔
      ∀ other, t.session.relations.index.get? l.key = some other → other = load) ∧
    (t.cleared = false ∨ (∀ other l', load < other → t.loads[other]? = some l' → l'.key ≠ l.key) →
      RelationMemo.ForgetsOnly load t.session.relations memo) ∧
    ∀ other, t.session.relations.index.get? l.key = some other → other ≠ load →
      t.cleared = true ∧ load < other ∧
      (∃ l', t.loads[other]? = some l' ∧ l'.key = l.key ∧ l'.spent = false) ∧
      ∀ caller, (∀ n, (t.session.relations.request l.key caller).1 ≠ .start n) ∧
        ∃ n, (memo.request l.key caller).1 = .start n := by
  have hSound : Sound log t := (Sound.start hRelations hLog).run hRun
  have hNone : Latest (start s).session.relations.index ((start s).loads.map (·.key)) := by
    rw [start, hRelations]
    intro key load hKey
    cases hKey
  have hLatest := hNone.run (Sound.start hRelations hLog) hRun
  have hLater {other : Nat} (hOther : t.session.relations.index.get? l.key = some other) (hne : other ≠ load) :
      load < other := by
    refine Nat.lt_of_le_of_ne (hLatest l.key other hOther load ?_) hne.symm
    rw [List.getElem?_map, hLoad, Option.map_some]
  have hCleared {other : Nat} (hOther : t.session.relations.index.get? l.key = some other) (hne : other ≠ load) :
      t.cleared = true := by
    by_contra hNever
    have hSole := hSound.sole (Bool.not_eq_true _ ▸ hNever)
    have hKept := hSole.kept l (List.mem_of_getElem? hLoad) hRuns
    have hOwn := hSole.index load l hLoad (by simp [Loading.spent, Loading.failed, hRuns, hKept])
    exact hne (Option.some.inj (hOther.symm.trans hOwn))
  have hIff := forgetsOnly_of_failed hLoad hComplete hSound
  refine ⟨hIff, fun hAlone => hIff.mpr fun other hOther => ?_, fun other hOther hne => ?_⟩
  · by_contra hne
    obtain ⟨l', hLoad', hKey, -⟩ := hSound.mirrors.indexed l.key other hOther
    rcases hAlone with hNever | hLast
    · rw [hCleared hOther hne] at hNever
      cases hNever
    · exact hLast other l' (hLater hOther hne) hLoad' hKey
  · refine ⟨hCleared hOther hne, hLater hOther hne, hSound.mirrors.indexed l.key other hOther, fun caller => ⟨?_, ?_⟩⟩
    · intro n hStart
      rw [(RelationMemo.starts_iff caller).mp ⟨n, hStart⟩] at hOther
      cases hOther
    · refine (RelationMemo.starts_iff caller).mpr ?_
      rw [RelationMemo.get?_of_failed hComplete, if_pos rfl]

end Failure

def begun (t : Lookups κ α) (key : String) (caller : κ) : Lookups κ α :=
  { t with
    session := t.withMemo
      { index := t.session.relations.index.set key t.session.relations.loads.length
        loads := t.session.relations.loads ++ [{ waiting := [caller] }] }
    calls := t.calls ++ [{ key, caller, load := t.session.relations.loads.length, late := false }]
    loads := t.loads ++ [{ key, waiting := [t.calls.length] }] }

def wiped (t : Lookups κ α) : Lookups κ α :=
  { t with session := t.withMemo t.session.relations.clear, loads := t.loads.map Loading.drop, cleared := true }

theorem step_begun (hIndex : t.session.relations.index.get? key = none) (caller : κ) :
    Step log t (t.begun key caller) := by
  refine .start ?_
  simp only [RelationMemo.request, hIndex]

/-- The first of two loads fails, and the second one stays. -/
theorem forgetsOnly_iff_twoKeys :
    ∃ t l, Run id (start desk) t ∧ t.loads[0]? = some l ∧ l.fetched = none ∧
      RelationMemo.ForgetsOnly 0 t.session.relations
        (t.session.relations.complete l.key 0 (.error Session.unreachable)).2 := by
  have hRun : Run id (start desk) (((start desk).begun "likes" "first").begun "tags" "second") :=
    .tail (.single (step_begun rfl _)) (step_begun (by decide) _)
  refine ⟨_, ⟨"likes", none, [0], false⟩, hRun, rfl, rfl, ?_⟩
  exact (forgetsOnly_iff rfl (Prod.eta _).symm rfl rfl hRun rfl).2.1 (.inl rfl)

/-- The memo is cleared while the load runs, and the relation is asked for again: the older load forgets the
newer one. -/
theorem not_forgetsOnly_clearedMeanwhile :
    ∃ t l, Run id (start desk) t ∧ t.loads[0]? = some l ∧ l.fetched = none ∧
      ¬ RelationMemo.ForgetsOnly 0 t.session.relations
        (t.session.relations.complete l.key 0 (.error Session.unreachable)).2 := by
  have hRun : Run id (start desk) (((start desk).begun "likes" "older").wiped.begun "likes" "newer") :=
    .tail (.tail (.single (step_begun rfl _)) .clear) (step_begun rfl _)
  refine ⟨_, ⟨"likes", none, [0], true⟩, hRun, rfl, rfl, fun h => ?_⟩
  have hKept := (h.index "likes" 1).mpr ⟨by decide, by decide⟩
  cases hKept

end Lookups

end RecordCache
