import RecordCache.Proofs.Assoc
import RecordCache.Relation.Memo

/-!
# What the relation memo answers

The index and the loads under each operation. `request_cases` is all that a request can do.
-/

namespace RecordCache.RelationMemo

variable {κ : Type} {m memo : RelationMemo κ} {key : String} {caller : κ} {load : Nat}
  {f : RelationLoad κ → RelationLoad κ}

theorem loaded?_eq_some_iff :
    m.loaded? key = some load ↔ m.index.get? key = some load ∧ (m.relation? load).isSome = true := by
  rw [loaded?, Option.filter_eq_some_iff]

theorem getElem?_update (n : Nat) :
    (m.update load f).loads[n]? = if load = n then m.loads[n]?.map f else m.loads[n]? := by
  rw [update, List.getElem?_modify]
  split <;> simp

theorem length_update : (m.update load f).loads.length = m.loads.length := List.length_modify ..

theorem request_cases {answer : RelationAnswer} (h : m.request key caller = (answer, memo)) :
    (∃ load, answer = .ready load ∧ memo = m ∧ m.loaded? key = some load) ∨
      (∃ load, answer = .waiting ∧ m.index.get? key = some load ∧ m.relation? load = none ∧
        memo = m.update load fun l => { l with waiting := l.waiting ++ [caller] }) ∨
      (answer = .start m.loads.length ∧ m.index.get? key = none ∧
        memo = { index := m.index.set key m.loads.length, loads := m.loads ++ [{ waiting := [caller] }] }) := by
  rw [request] at h
  split at h
  · next load hIndex =>
    split at h
    · next hReady =>
      obtain ⟨rfl, rfl⟩ := Prod.mk.inj h
      exact .inl ⟨load, rfl, rfl, loaded?_eq_some_iff.mpr ⟨hIndex, hReady⟩⟩
    · next hRuns =>
      obtain ⟨rfl, rfl⟩ := Prod.mk.inj h
      exact .inr (.inl ⟨load, rfl, hIndex, by simpa using hRuns, rfl⟩)
  · next hIndex =>
    obtain ⟨rfl, rfl⟩ := Prod.mk.inj h
    exact .inr (.inr ⟨rfl, hIndex, rfl⟩)

theorem request_of_loaded (h : m.loaded? key = some load) (caller : κ) :
    m.request key caller = (.ready load, m) := by
  obtain ⟨hIndex, hReady⟩ := loaded?_eq_some_iff.mp h
  simp only [request, hIndex, hReady, if_true]

theorem request_of_runs (hIndex : m.index.get? key = some load) (hRuns : m.relation? load = none) (caller : κ) :
    m.request key caller =
      (.waiting, m.update load fun l => { l with waiting := l.waiting ++ [caller] }) := by
  simp only [request, hIndex, hRuns, Option.isSome_none, if_neg Bool.false_ne_true]

theorem request_of_absent (h : m.index.get? key = none) (caller : κ) :
    m.request key caller =
      (.start m.loads.length,
        { index := m.index.set key m.loads.length, loads := m.loads ++ [{ waiting := [caller] }] }) := by
  simp only [request, h]

theorem starts_iff (caller : κ) :
    (∃ load, (m.request key caller).1 = .start load) ↔ m.index.get? key = none := by
  constructor
  · rintro ⟨load, hStart⟩
    rcases hRequest : m.request key caller with ⟨answer, memo⟩
    rw [hRequest] at hStart
    obtain ⟨_, rfl, -⟩ | ⟨_, rfl, -⟩ | ⟨-, hIndex, -⟩ := request_cases hRequest
    · cases hStart
    · cases hStart
    · exact hIndex
  · intro hIndex
    exact ⟨m.loads.length, by simp only [request, hIndex]⟩

/-- A relation is changed where the memo holds it, or nowhere. -/
theorem change_eq (m : RelationMemo κ) (key : String) (f : Relation → Relation) :
    m.change key f = m ∨
      ∃ load, m.change key f = m.update load fun l => { l with relation := l.relation.map f } := by
  rw [change]
  cases m.loaded? key with
  | none => exact .inl rfl
  | some load => exact .inr ⟨load, rfl⟩

end RecordCache.RelationMemo
