import RecordCache.Proofs.Json.Equality
import RecordCache.Relation

/-!
# A relation is an ordered set

What a relation holds, told from the calls that it has seen, the pointers that it began with among them. The last
call about an id decides whether a pointer with the id is held, and which one; the pointers stand in the order of
these calls. `Follows.call` says that one call keeps this up, `orderedSet_callAll` that it is so after any calls.
An id is any document; a NaN is no id that a pointer could be found by.
-/

namespace RecordCache

/-- A call that changes a relation. -/
inductive RelationCall
  | add (p : Pointer)
  | remove (id : Json)

namespace RelationCall

/-- The id that the call is about. -/
def id : RelationCall → Json
  | add p => p.objectId
  | remove id => id

def added? : RelationCall → Option Pointer
  | add p => some p
  | remove _ => none

theorem added?_eq_some_iff {c : RelationCall} {p : Pointer} : c.added? = some p ↔ c = add p := by
  cases c <;> simp [added?]

/-- The last of the calls that are about the id. -/
def lastAbout? (history : List RelationCall) (id : Json) : Option RelationCall :=
  history.reverse.find? fun c => c.id.same id

theorem lastAbout?_append (history : List RelationCall) (c : RelationCall) (id : Json) :
    lastAbout? (history ++ [c]) id = if c.id.same id then some c else lastAbout? history id := by
  rw [lastAbout?, List.reverse_append, List.reverse_singleton, List.singleton_append, List.find?_cons]
  cases c.id.same id <;> rfl

/-- At this time the pointer was added, and no later call is about its id. -/
structure LastAdded (history : List RelationCall) (p : Pointer) (time : Nat) : Prop where
  added : history[time]? = some (add p)
  untouched : ∀ c ∈ history.drop (time + 1), c.id.same p.objectId = false

section LastAdded

variable {history : List RelationCall} {p : Pointer} {time : Nat}

theorem LastAdded.time_lt (h : LastAdded history p time) : time < history.length :=
  (List.getElem?_eq_some_iff.mp h.added).choose

theorem LastAdded.mem (h : LastAdded history p time) : add p ∈ history := List.mem_of_getElem? h.added

theorem LastAdded.append (h : LastAdded history p time) {c : RelationCall} (hOther : c.id.same p.objectId = false) :
    LastAdded (history ++ [c]) p time where
  added := (List.getElem?_append_left h.time_lt).trans h.added
  untouched c' hc' := by
    rw [List.drop_append_of_le_length h.time_lt] at hc'
    rcases List.mem_append.mp hc' with hOld | hNew
    · exact h.untouched c' hOld
    · rwa [List.mem_singleton.mp hNew]

theorem lastAdded_append_add (history : List RelationCall) (p : Pointer) :
    LastAdded (history ++ [add p]) p history.length where
  added := by simp
  untouched c hc := by simp at hc

end LastAdded

end RelationCall

namespace Relation

open RelationCall (lastAbout? LastAdded lastAbout?_append lastAdded_append_add)

def call (r : Relation) : RelationCall → Relation
  | .add p => r.add p
  | .remove id => r.remove id

def callAll (r : Relation) (calls : List RelationCall) : Relation := calls.foldl call r

theorem ofList_eq_callAll (initial : List Pointer) : ofList initial = callAll {} (initial.map .add) := by
  rw [callAll, List.foldl_map]
  rfl

theorem pointers_call (r : Relation) (c : RelationCall) :
    (r.call c).pointers = (r.remove c.id).pointers ++ c.added?.toList := by
  cases c with
  | add p => rfl
  | remove id => exact (List.append_nil _).symm

/-! ### The pointers with an id -/

def withId (r : Relation) (id : Json) : List Pointer := r.pointers.filter fun p => p.objectId.same id

theorem contains_iff_withId (r : Relation) (id : Json) : r.contains id = true ↔ r.withId id ≠ [] := by
  rw [contains, List.any_eq_true, withId, ne_eq, List.filter_eq_nil_iff]
  simp

theorem withId_remove_of_same (r : Relation) {id other : Json} (hId : id.isDocument = true)
    (h : id.same other = true) : (r.remove id).withId other = [] := by
  rw [withId, remove, List.filter_filter, List.filter_eq_nil_iff]
  intro p _
  rw [Json.same_congr hId h, Bool.and_not_self]
  exact Bool.false_ne_true

theorem withId_remove_of_not_same {r : Relation} (hIds : ∀ p ∈ r.pointers, p.objectId.isDocument = true)
    {id other : Json} (h : id.same other = false) : (r.remove id).withId other = r.withId other := by
  rw [withId, remove, List.filter_filter, withId]
  refine List.filter_congr fun p hp => ?_
  cases hOther : p.objectId.same other with
  | false => rfl
  | true =>
    -- equal to both, the pointer's id would make them equal
    have hId : p.objectId.same id = false := by
      rw [Bool.eq_false_iff]
      intro hSame
      have hBoth := Json.same_trans (hIds p hp) (Json.same_symm (hIds p hp) hSame) hOther
      rw [h] at hBoth
      cases hBoth
    rw [hId]
    rfl

/-! ### The order of the pointers -/

/-- Pointers with the times at which they were last added, the earliest first. -/
structure InOrder (history : List RelationCall) (dated : List (Pointer × Nat)) : Prop where
  times : dated.Pairwise fun e e' => e.2 < e'.2
  last : ∀ e ∈ dated, LastAdded history e.1 e.2

/-- Those whose id the call is about go; one that it adds has the latest time of all. -/
theorem InOrder.call {history : List RelationCall} {dated : List (Pointer × Nat)} (h : InOrder history dated)
    {c : RelationCall} (hId : c.id.isDocument = true) :
    InOrder (history ++ [c]) ((dated.filter fun e => !e.1.objectId.same c.id) ++
      c.added?.toList.map fun p => (p, history.length)) where
  times := by
    refine List.pairwise_append.mpr ⟨h.times.filter _, ?_, fun e he e' he' => ?_⟩
    · cases c.added? <;> simp
    · obtain ⟨p, -, rfl⟩ := List.mem_map.mp he'
      exact (h.last e (List.mem_filter.mp he).1).time_lt
  last e he := by
    rcases List.mem_append.mp he with hKept | hNew
    · obtain ⟨hMem, hOther⟩ := List.mem_filter.mp hKept
      refine (h.last e hMem).append (Bool.eq_false_iff.mpr fun hSame => ?_)
      rw [Json.same_symm hId hSame] at hOther
      cases hOther
    · obtain ⟨p, hp, rfl⟩ := List.mem_map.mp hNew
      obtain rfl := RelationCall.added?_eq_some_iff.mp (Option.mem_toList.mp hp)
      exact lastAdded_append_add history p

/-! ### After a history -/

/-- For each id the relation holds what the last call about it has added, and the pointers stand in the order of
these calls. -/
structure Follows (r : Relation) (history : List RelationCall) : Prop where
  held : ∀ id, r.withId id = ((lastAbout? history id).bind RelationCall.added?).toList
  ordered : ∃ dated, dated.map Prod.fst = r.pointers ∧ InOrder history dated

variable {r : Relation} {history : List RelationCall}

theorem follows_nil : Follows {} [] := ⟨fun _ => rfl, [], rfl, .nil, fun _ he => nomatch he⟩

theorem Follows.mem (h : r.Follows history) {p : Pointer} (hp : p ∈ r.pointers) : .add p ∈ history := by
  obtain ⟨dated, hPointers, hOrder⟩ := h.ordered
  rw [← hPointers] at hp
  obtain ⟨e, he, rfl⟩ := List.mem_map.mp hp
  exact (hOrder.last e he).mem

/-- An id that the call is about is decided by it, and every other one as before. -/
theorem withId_call (hIds : ∀ p ∈ r.pointers, p.objectId.isDocument = true) {c : RelationCall}
    (hId : c.id.isDocument = true) (id : Json) :
    (r.call c).withId id = if c.id.same id then c.added?.toList else r.withId id := by
  have hSplit : (r.call c).withId id =
      (r.remove c.id).withId id ++ c.added?.toList.filter fun p => p.objectId.same id := by
    rw [withId, pointers_call, List.filter_append, withId]
  have hAdded : (c.added?.toList.filter fun p => p.objectId.same id) =
      if c.id.same id then c.added?.toList else [] := by
    cases c with
    | add p =>
      rw [RelationCall.added?, Option.toList_some, List.filter_singleton, Bool.cond_eq_ite]
      rfl
    | remove x => exact (ite_self _).symm
  rw [hSplit, hAdded]
  cases h : c.id.same id with
  | true => rw [withId_remove_of_same r hId h, List.nil_append, if_pos rfl, if_pos rfl]
  | false =>
    rw [withId_remove_of_not_same hIds h, if_neg Bool.false_ne_true, if_neg Bool.false_ne_true, List.append_nil]

theorem Follows.call (h : r.Follows history) (hHistory : ∀ c ∈ history, c.id.isDocument = true) {c : RelationCall}
    (hId : c.id.isDocument = true) : (r.call c).Follows (history ++ [c]) where
  held id := by
    rw [withId_call (fun p hp => hHistory _ (h.mem hp)) hId, lastAbout?_append, h.held]
    split <;> rfl
  ordered := by
    obtain ⟨dated, hPointers, hOrder⟩ := h.ordered
    refine ⟨_, ?_, hOrder.call hId⟩
    rw [pointers_call, remove, ← hPointers, List.filter_map, List.map_append, List.map_map]
    congr 1
    exact List.map_id _

theorem Follows.callAll (h : r.Follows history) {calls : List RelationCall}
    (hIds : ∀ c ∈ history ++ calls, c.id.isDocument = true) : (r.callAll calls).Follows (history ++ calls) := by
  induction calls generalizing r history with
  | nil => rwa [List.append_nil]
  | cons c rest ih =>
    rw [List.append_cons] at hIds ⊢
    refine ih (h.call (fun d hd => hIds d ?_) (hIds c ?_)) hIds
    · simp [hd]
    · simp

/-- For an id there is at most one pointer, and there is one just when the last call about the id has added it: the
pointer of that call. The pointers stand in the order of the times at which they were last added. -/
structure OrderedSet (r : Relation) (history : List RelationCall) : Prop where
  atMostOne : ∀ id, (r.withId id).length ≤ 1
  contains_iff : ∀ id, r.contains id = true ↔ ∃ p, lastAbout? history id = some (.add p)
  lastAdded : ∀ id p, lastAbout? history id = some (.add p) → r.withId id = [p]
  ordered : ∃ dated, dated.map Prod.fst = r.pointers ∧ InOrder history dated

theorem Follows.orderedSet (h : r.Follows history) : r.OrderedSet history where
  atMostOne id := by
    rw [h.held]
    exact Option.length_toList_le
  contains_iff id := by
    rw [contains_iff_withId, h.held, ne_eq, Option.toList_eq_nil_iff, ← ne_eq, Option.ne_none_iff_exists']
    simp only [Option.bind_eq_some_iff, RelationCall.added?_eq_some_iff, exists_eq_right]
  lastAdded id p hLast := by
    rw [h.held, hLast]
    rfl
  ordered := h.ordered

/-- Whatever the pointers are that it begins with, and whatever is added and removed. -/
theorem orderedSet_callAll {initial : List Pointer} {calls : List RelationCall}
    (hInitial : ∀ p ∈ initial, p.objectId.isDocument = true) (hCalls : ∀ c ∈ calls, c.id.isDocument = true) :
    ((ofList initial).callAll calls).OrderedSet (initial.map .add ++ calls) := by
  have hHistory : ∀ c ∈ initial.map RelationCall.add, c.id.isDocument = true := by
    intro c hc
    obtain ⟨p, hp, rfl⟩ := List.mem_map.mp hc
    exact hInitial p hp
  have hInit : (ofList initial).Follows (initial.map .add) := by
    rw [ofList_eq_callAll]
    exact follows_nil.callAll hHistory
  refine (hInit.callAll fun c hc => ?_).orderedSet
  exact (List.mem_append.mp hc).elim (hHistory c) (hCalls c)

/-- A pointer comes again, with nothing known about it any more, and one that was removed comes back. -/
theorem orderedSet_callAll_again :
    (∀ p ∈ [{ Pointer.ofNames "Note" "a" with connections := [("author", ⟨.string "_User", .string "u1"⟩)] },
        .ofNames "Note" "b"], p.objectId.isDocument = true) ∧
    (∀ c ∈ [RelationCall.remove (.string "b"), .add (.ofNames "Note" "a"), .add (.ofNames "Note" "b")],
      c.id.isDocument = true) ∧
    ((ofList [{ Pointer.ofNames "Note" "a" with connections := [("author", ⟨.string "_User", .string "u1"⟩)] },
        .ofNames "Note" "b"]).callAll
      [.remove (.string "b"), .add (.ofNames "Note" "a"), .add (.ofNames "Note" "b")]).withId (.string "a") =
        [.ofNames "Note" "a"] := by
  have hInitial : ∀ p ∈ [{ Pointer.ofNames "Note" "a" with
      connections := [("author", ⟨.string "_User", .string "u1"⟩)] }, .ofNames "Note" "b"],
      p.objectId.isDocument = true := by
    simp [Pointer.ofNames, Json.isDocument]
  have hCalls : ∀ c ∈ [RelationCall.remove (.string "b"), .add (.ofNames "Note" "a"), .add (.ofNames "Note" "b")],
      c.id.isDocument = true := by
    simp [RelationCall.id, Pointer.ofNames, Json.isDocument]
  refine ⟨hInitial, hCalls, (orderedSet_callAll hInitial hCalls).lastAdded _ _ ?_⟩
  simp [lastAbout?, RelationCall.id, Pointer.ofNames, Json.same, Json.sameScalar]

end Relation

end RecordCache
