import RecordCache.Proofs.Relation.Keys
import RecordCache.Proofs.Relation.Memo

/-!
# Links, and what the memo makes of writing them

A link is one membership; it stands on two rolls, on each under the id of its other end. `listed?_apply` is all
that a write does to the memo: the rolls of its link that are loaded follow it, and no other entry changes, as long
as no two entries share a load.
-/

namespace RecordCache

@[ext]
structure Link where
  kind : RelationKind
  owner : String
  member : String
  deriving DecidableEq

/-- A link that is made or broken. -/
structure LinkWrite where
  link : Link
  adds : Bool
  /-- What is known of the member when it becomes one. -/
  connections : Keyed Ref := []

namespace Link

def membersRoll (link : Link) : Roll := .members link.kind link.owner

def ownersRoll (link : Link) : Roll := .owners link.kind link.member

/-- Whether the link stands after the writes, given whether it stood before them. -/
def after (link : Link) (ws : List LinkWrite) (stands : Bool) : Bool :=
  ws.foldl (fun stands w => if w.link = link then w.adds else stands) stands

theorem after_append (link : Link) (ws ws' : List LinkWrite) (stands : Bool) :
    link.after (ws ++ ws') stands = link.after ws' (link.after ws stands) := List.foldl_append

end Link

/-- The link that an id on the roll stands for. -/
def Roll.link : Roll → String → Link
  | .members kind owner, id => ⟨kind, owner, id⟩
  | .owners kind member, id => ⟨kind, id, member⟩

/-! ### The ids of a relation -/

namespace Relation

variable {r : Relation} {id : String}

def has (r : Relation) (id : String) : Bool := r.contains (.string id)

theorem same_string {j : Json} : j.same (.string id) = true ↔ j = .string id := by
  cases j <;> simp [Json.same, Json.sameScalar, Json.numeric?]

theorem has_iff : r.has id = true ↔ ∃ p ∈ r.pointers, p.objectId = .string id := by
  simp only [has, contains, List.any_eq_true, same_string]

theorem has_remove (r : Relation) (id other : String) :
    (r.remove (.string id)).has other = (r.has other && id != other) := by
  rw [Bool.eq_iff_iff, has_iff, Bool.and_eq_true, has_iff, bne_iff_ne]
  constructor
  · rintro ⟨p, hp, hId⟩
    obtain ⟨hMem, hKept⟩ := List.mem_filter.mp hp
    refine ⟨⟨p, hMem, hId⟩, ?_⟩
    rintro rfl
    rw [same_string.mpr hId] at hKept
    cases hKept
  · rintro ⟨⟨p, hMem, hId⟩, hOther⟩
    refine ⟨p, List.mem_filter.mpr ⟨hMem, ?_⟩, hId⟩
    rw [Bool.not_eq_true', Bool.eq_false_iff, ne_eq, same_string, hId]
    simpa using hOther.symm

theorem has_add (r : Relation) {p : Pointer} {id : String} (hp : p.objectId = .string id) (other : String) :
    (r.add p).has other = (r.has other || id == other) := by
  have hLast : (r.add p).has other = ((r.remove p.objectId).has other || p.objectId.same (.string other)) := by
    simp only [has, contains, add, List.any_append, List.any_cons, List.any_nil, Bool.or_false]
  have hSame : (Json.string id).same (.string other) = (id == other) := by
    rw [Bool.eq_iff_iff, same_string, Json.string.injEq, beq_iff_eq]
  rw [hLast, hp, has_remove, hSame]
  cases hId : id == other <;> simp [hId, bne]

theorem has_foldl_add {pointers : List Pointer} (h : ∀ p ∈ pointers, ∃ id, p.objectId = .string id) (r : Relation) :
    (pointers.foldl add r).has id = true ↔ r.has id = true ∨ ∃ p ∈ pointers, p.objectId = .string id := by
  induction pointers generalizing r with
  | nil => simp
  | cons p rest ih =>
    obtain ⟨other, hOther⟩ := h p List.mem_cons_self
    rw [List.foldl_cons, ih (fun q hq => h q (List.mem_cons_of_mem _ hq)), has_add r hOther, Bool.or_eq_true,
      beq_iff_eq, or_assoc]
    simp only [List.mem_cons, or_and_right, exists_or, exists_eq_left, hOther, Json.string.injEq]

theorem has_ofList {pointers : List Pointer} (h : ∀ p ∈ pointers, ∃ id, p.objectId = .string id) :
    (ofList pointers).has id = true ↔ ∃ p ∈ pointers, p.objectId = .string id := by
  rw [ofList, has_foldl_add h, or_iff_right]
  exact Bool.false_ne_true

end Relation

/-! ### Writing a link -/

namespace LinkWrite

variable {κ : Type}

def member (w : LinkWrite) : Pointer :=
  { toRef := w.link.kind.memberRef w.link.member, connections := w.connections }

def owner (w : LinkWrite) : Ref := w.link.kind.ownerRef w.link.owner

/-- Brings the write into the memo. -/
def apply (w : LinkWrite) (m : RelationMemo κ) : RelationMemo κ :=
  if w.adds then m.addMember w.link.kind.key w.owner w.member else m.removeMember w.link.kind.key w.owner w.member

/-- Puts a pointer into a relation, or takes it out. -/
def put (w : LinkWrite) (p : Pointer) (r : Relation) : Relation := if w.adds then r.add p else r.remove p.objectId

theorem has_put (w : LinkWrite) {p : Pointer} {id : String} (hp : p.objectId = .string id) (r : Relation)
    (other : String) : (w.put p r).has other = if id = other then w.adds else r.has other := by
  rw [put]
  cases w.adds with
  | true =>
    rw [if_pos rfl, Relation.has_add r hp]
    split <;> simp_all
  | false =>
    rw [if_neg Bool.false_ne_true, hp, Relation.has_remove]
    split <;> simp_all

theorem apply_eq (w : LinkWrite) (m : RelationMemo κ) :
    w.apply m = (m.change w.link.membersRoll.cacheKey (w.put w.member)).change w.link.ownersRoll.cacheKey
      (w.put { toRef := w.owner }) := by
  rw [apply]
  cases hAdds : w.adds with
  | true =>
    have hPut (p : Pointer) : w.put p = (·.add p) := by
      funext r
      rw [put, hAdds, if_pos rfl]
    rw [if_pos rfl, hPut, hPut]
    rfl
  | false =>
    have hPut (p : Pointer) : w.put p = (·.remove p.objectId) := by
      funext r
      rw [put, hAdds, if_neg Bool.false_ne_true]
    rw [if_neg Bool.false_ne_true, hPut, hPut]
    rfl

end LinkWrite

/-- What a write makes of the relation that a roll is. -/
def Roll.follow (roll : Roll) (r : Relation) (w : LinkWrite) : Relation :=
  if roll = w.link.membersRoll then w.put w.member r
  else if roll = w.link.ownersRoll then w.put { toRef := w.owner } r
  else r

theorem Roll.has_follow (roll : Roll) (r : Relation) (w : LinkWrite) (id : String) :
    (roll.follow r w).has id = if w.link = roll.link id then w.adds else r.has id := by
  rw [follow]
  split
  · next hMembers =>
    subst hMembers
    have hSame : w.link = w.link.membersRoll.link id ↔ w.link.member = id := by
      rw [Link.membersRoll, Roll.link, Link.ext_iff]
      simp
    rw [LinkWrite.has_put w rfl]
    simp only [hSame]
  · next hMembers =>
    split
    · next hOwners =>
      subst hOwners
      have hSame : w.link = w.link.ownersRoll.link id ↔ w.link.owner = id := by
        rw [Link.ownersRoll, Roll.link, Link.ext_iff]
        simp
      rw [LinkWrite.has_put w rfl]
      simp only [hSame]
    · next hOwners =>
      rw [if_neg]
      intro hLink
      cases roll with
      | members kind owner => exact hMembers (by rw [hLink]; rfl)
      | owners kind member => exact hOwners (by rw [hLink]; rfl)

/-- What the writes make of it, one after the other. -/
def Roll.followAll (roll : Roll) (ws : List LinkWrite) (r : Relation) : Relation := ws.foldl roll.follow r

theorem Roll.has_followAll (roll : Roll) (ws : List LinkWrite) (r : Relation) (id : String) :
    (roll.followAll ws r).has id = (roll.link id).after ws (r.has id) := by
  induction ws generalizing r with
  | nil => rfl
  | cons w rest ih =>
    change (roll.followAll rest (roll.follow r w)).has id = _
    rw [ih, Roll.has_follow]
    rfl

theorem Roll.followAll_of_aside {roll : Roll} {ws : List LinkWrite}
    (h : ∀ w ∈ ws, roll ≠ w.link.membersRoll ∧ roll ≠ w.link.ownersRoll) (r : Relation) :
    roll.followAll ws r = r := by
  induction ws with
  | nil => rfl
  | cons w rest ih =>
    obtain ⟨hMembers, hOwners⟩ := h w List.mem_cons_self
    change roll.followAll rest (roll.follow r w) = r
    rw [follow, if_neg hMembers, if_neg hOwners, ih fun w' hw' => h w' (List.mem_cons_of_mem _ hw')]

namespace RelationMemo

variable {κ : Type} {m memo : RelationMemo κ} {key : String}

/-- The members that the memo knows under a key. -/
def listed? (m : RelationMemo κ) (key : String) : Option Relation := (m.loaded? key).bind m.relation?

theorem listed?_eq (m : RelationMemo κ) (key : String) : m.listed? key = (m.index.get? key).bind m.relation? := by
  rw [listed?, loaded?]
  cases m.index.get? key with
  | none => rfl
  | some load => cases h : m.relation? load <;> simp [Option.filter, h]

theorem relation?_update (load n : Nat) (f : RelationLoad κ → RelationLoad κ) :
    (m.update load f).relation? n = if load = n then (m.loads[n]?).bind fun l => (f l).relation else m.relation? n := by
  rw [relation?, getElem?_update]
  split
  · rw [Option.bind_map]
    rfl
  · rfl

/-- No two entries share a load, and each has one. -/
structure Apart (m : RelationMemo κ) : Prop where
  bounded : ∀ e ∈ m.index, e.2 < m.loads.length
  one : ∀ e ∈ m.index, ∀ e' ∈ m.index, e.2 = e'.2 → e.1 = e'.1

theorem listed?_change (hApart : m.Apart) (key other : String) (f : Relation → Relation) :
    (m.change key f).listed? other = if key = other then (m.listed? other).map f else m.listed? other := by
  cases hLoaded : m.loaded? key with
  | none =>
    have hSame : m.change key f = m := by rw [change, hLoaded]
    rw [hSame]
    split
    · next hKey =>
      rw [listed?, ← hKey, hLoaded]
      rfl
    · rfl
  | some load =>
    obtain ⟨hIndex, -⟩ := loaded?_eq_some_iff.mp hLoaded
    have hChange : m.change key f = m.update load fun l => { l with relation := l.relation.map f } := by
      rw [change, hLoaded]
    rw [hChange, listed?_eq, listed?_eq]
    change (Assoc.get? m.index other).bind _ = _
    cases hOther : Assoc.get? m.index other with
    | none => cases decEq key other <;> simp_all
    | some n =>
      have hSame : load = n ↔ key = other := by
        refine ⟨fun h => hApart.one _ (Assoc.mem_of_get? hIndex) _ (Assoc.mem_of_get? hOther) h, ?_⟩
        rintro rfl
        exact Option.some.inj (hIndex.symm.trans hOther)
      simp only [Option.bind_some, relation?_update, hSame]
      split
      · rw [relation?, Option.map_bind]
        rfl
      · rfl

/-- As it has been with all that is in the index, it is with fewer entries, and with loads that have changed. -/
theorem Apart.of_subset (hApart : m.Apart) (hIndex : ∀ e ∈ memo.index, e ∈ m.index)
    (hLoads : m.loads.length ≤ memo.loads.length) : memo.Apart where
  bounded e he := Nat.lt_of_lt_of_le (hApart.bounded e (hIndex e he)) hLoads
  one e he e' he' := hApart.one e (hIndex e he) e' (hIndex e' he')

theorem Apart.update (hApart : m.Apart) (load : Nat) (f : RelationLoad κ → RelationLoad κ) : (m.update load f).Apart :=
  hApart.of_subset (fun _ he => he) (Nat.le_of_eq length_update.symm)

theorem Apart.change (hApart : m.Apart) (key : String) (f : Relation → Relation) : (m.change key f).Apart := by
  obtain hSame | ⟨load, hUpdate⟩ := change_eq m key f
  · rwa [hSame]
  · rw [hUpdate]
    exact hApart.update _ _

/-- Entries never come to share a load. -/
theorem Apart.request (hApart : m.Apart) {caller : κ} {answer : RelationAnswer}
    (h : m.request key caller = (answer, memo)) : memo.Apart := by
  obtain ⟨_, -, rfl, -⟩ | ⟨_, -, -, -, rfl⟩ | ⟨-, -, rfl⟩ := request_cases h
  · exact hApart
  · exact hApart.update _ _
  · have hFresh : ∀ e ∈ m.index, e.2 ≠ m.loads.length := fun e he => Nat.ne_of_lt (hApart.bounded e he)
    refine ⟨fun e he => ?_, fun e he e' he' hLoad => ?_⟩
    · rw [List.length_append]
      rcases Assoc.mem_set he with hMem | rfl
      · exact Nat.lt_add_right _ (hApart.bounded e hMem)
      · exact Nat.lt_add_one _
    · rcases Assoc.mem_set he with hMem | rfl
      · rcases Assoc.mem_set he' with hMem' | rfl
        · exact hApart.one e hMem e' hMem' hLoad
        · exact absurd hLoad (hFresh e hMem)
      · rcases Assoc.mem_set he' with hMem' | rfl
        · exact absurd hLoad.symm (hFresh e' hMem')
        · rfl

theorem Apart.complete (hApart : m.Apart) (key : String) (load : Nat) (result : Except Error (List Pointer)) :
    (m.complete key load result).2.Apart := by
  cases result with
  | ok pointers => exact hApart.update _ _
  | error e => exact (hApart.update load _).of_subset (fun e he => (List.mem_filter.mp he).1) (Nat.le_refl _)

theorem Apart.forget (hApart : m.Apart) (owner : Ref) : (m.forget owner).Apart :=
  hApart.of_subset (fun _ he => (List.mem_filter.mp he).1) (Nat.le_refl _)

theorem Apart.clear (hApart : m.Apart) : m.clear.Apart := hApart.of_subset (fun _ he => (nomatch he)) (Nat.le_refl _)

theorem apart_empty : ({} : RelationMemo κ).Apart := ⟨fun _ he => (nomatch he), fun _ he => (nomatch he)⟩

theorem index_apply (w : LinkWrite) : (w.apply m).index = m.index := by
  have hChange (m : RelationMemo κ) (key : String) (f : Relation → Relation) : (m.change key f).index = m.index := by
    obtain hSame | ⟨load, hUpdate⟩ := change_eq m key f
    · rw [hSame]
    · rw [hUpdate, update]
  rw [LinkWrite.apply_eq, hChange, hChange]

theorem length_apply (w : LinkWrite) : (w.apply m).loads.length = m.loads.length := by
  have hChange (m : RelationMemo κ) (key : String) (f : Relation → Relation) :
      (m.change key f).loads.length = m.loads.length := by
    obtain hSame | ⟨load, hUpdate⟩ := change_eq m key f
    · rw [hSame]
    · rw [hUpdate, length_update]
  rw [LinkWrite.apply_eq, hChange, hChange]

theorem Apart.apply (hApart : m.Apart) (w : LinkWrite) : (w.apply m).Apart := by
  rw [LinkWrite.apply_eq]
  exact (hApart.change _ _).change _ _

theorem listed?_apply (hApart : m.Apart) (w : LinkWrite) (roll : Roll) :
    (w.apply m).listed? roll.cacheKey = (m.listed? roll.cacheKey).map fun r => roll.follow r w := by
  have hOther : w.link.membersRoll ≠ w.link.ownersRoll := nofun
  have hKey {roll' : Roll} : roll'.cacheKey = roll.cacheKey ↔ roll = roll' :=
    Roll.cacheKey_injective.eq_iff.trans eq_comm
  rw [LinkWrite.apply_eq, listed?_change (hApart.change _ _), listed?_change hApart]
  simp only [hKey]
  by_cases hMembers : roll = w.link.membersRoll
  · subst hMembers
    simp [Roll.follow, hOther]
  · by_cases hOwners : roll = w.link.ownersRoll
    · subst hOwners
      simp [Roll.follow, hMembers]
    · simp [Roll.follow, hMembers, hOwners]

theorem listed?_apply_of_ne (hApart : m.Apart) (w : LinkWrite) (h : ∀ roll : Roll, roll.cacheKey ≠ key) :
    (w.apply m).listed? key = m.listed? key := by
  rw [LinkWrite.apply_eq, listed?_change (hApart.change _ _), listed?_change hApart, if_neg (h _), if_neg (h _)]

end RelationMemo

end RecordCache
