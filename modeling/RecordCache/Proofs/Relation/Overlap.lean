import Mathlib.Data.List.Nodup
import Mathlib.Data.List.Sort
import Mathlib.Logic.Relation
import RecordCache.Proofs.Relation.Links

/-!
# Writes while relations are loaded

The server applies a write, and after that the memo is told of it; a relation is asked for, the server answers with
the links that stand, and after that the memo has the answer. Both may go on at once, in any order. A load has
heard of the writes before its answer, and of those that the memo is told of once it is complete: what it makes of
them is what the memo holds. A write that comes after the answer is missed when the memo is told of it too early.
-/

namespace RecordCache

/-- How far a load has come; writes, and what the memo is told, are counted. -/
inductive LoadStage
  | asked
  /-- The server has answered after so many writes. -/
  | answered (writes : Nat) (pointers : List Pointer)
  /-- The memo has the answer that came after so many writes; before that, it was told so many times. -/
  | complete (writes told : Nat)
  | failed

def LoadStage.runs : LoadStage → Bool
  | asked => true
  | answered _ _ => true
  | _ => false

structure RollLoad where
  roll : Roll
  stage : LoadStage := .asked

/-- The pointers of the links that stand, in any order. -/
structure Roll.Lists (roll : Roll) (stands : Link → Bool) (pointers : List Pointer) : Prop where
  texts : ∀ p ∈ pointers, ∃ id, p.objectId = .string id
  links : ∀ id, (∃ p ∈ pointers, p.objectId = .string id) ↔ stands (roll.link id) = true

/-- The memo and the server. Loads are numbered as in the memo, writes as the server applies them. -/
structure Overlap (κ : Type) where
  memo : RelationMemo κ := {}
  loads : List RollLoad := []
  writes : List LinkWrite := []
  /-- The numbers of the writes that the memo was told of. -/
  told : List Nat := []

namespace Overlap

variable {κ : Type} {initial : Link → Bool} {t t' : Overlap κ} {roll : Roll} {load : Nat} {l : RollLoad}

/-- What the server holds, when it began with the links given. -/
def stands (initial : Link → Bool) (t : Overlap κ) (link : Link) : Bool := link.after t.writes (initial link)

def toldFrom (t : Overlap κ) (count : Nat) : List LinkWrite := (t.told.drop count).filterMap (t.writes[·]?)

/-- The writes that a load has heard of, in the order in which it has. -/
def heard (t : Overlap κ) (writes told : Nat) : List LinkWrite := t.writes.take writes ++ t.toldFrom told

inductive Step (initial : Link → Bool) : Overlap κ → Overlap κ → Prop
  | start {t : Overlap κ} {roll : Roll} {caller : κ} {load : Nat} {memo : RelationMemo κ}
      (hRequest : t.memo.request roll.cacheKey caller = (.start load, memo)) :
      Step initial t { t with memo, loads := t.loads ++ [⟨roll, .asked⟩] }
  /-- Nothing is loaded for a caller who finds a load. -/
  | find {t : Overlap κ} {roll : Roll} {caller : κ} {answer : RelationAnswer} {memo : RelationMemo κ}
      (hRequest : t.memo.request roll.cacheKey caller = (answer, memo)) (hFound : ∀ load, answer ≠ .start load) :
      Step initial t { t with memo }
  | answer {t : Overlap κ} {load : Nat} {roll : Roll} {pointers : List Pointer}
      (hLoad : t.loads[load]? = some ⟨roll, .asked⟩) (hLists : roll.Lists (t.stands initial) pointers) :
      Step initial t { t with loads := t.loads.set load ⟨roll, .answered t.writes.length pointers⟩ }
  | finish {t : Overlap κ} {load : Nat} {roll : Roll} {writes : Nat} {pointers : List Pointer}
      (hLoad : t.loads[load]? = some ⟨roll, .answered writes pointers⟩) :
      Step initial t { t with
        memo := (t.memo.complete roll.cacheKey load (.ok pointers)).2
        loads := t.loads.set load ⟨roll, .complete writes t.told.length⟩ }
  | fail {t : Overlap κ} {load : Nat} {l : RollLoad} (e : Error) (hLoad : t.loads[load]? = some l)
      (hRuns : l.stage.runs = true) :
      Step initial t { t with
        memo := (t.memo.complete l.roll.cacheKey load (.error e)).2, loads := t.loads.set load ⟨l.roll, .failed⟩ }
  | write {t : Overlap κ} (w : LinkWrite) : Step initial t { t with writes := t.writes ++ [w] }
  | tell {t : Overlap κ} {i : Nat} {w : LinkWrite} (hWrite : t.writes[i]? = some w) (hNew : i ∉ t.told) :
      Step initial t { t with memo := w.apply t.memo, told := t.told ++ [i] }

abbrev Run (initial : Link → Bool) : Overlap κ → Overlap κ → Prop := Relation.ReflTransGen (Step initial)

/-- No load runs, and the memo was told of every write. -/
structure Quiet (t : Overlap κ) : Prop where
  loads : ∀ l ∈ t.loads, l.stage.runs = false
  writes : ∀ i < t.writes.length, i ∈ t.told

/-- Every relation that the memo holds has exactly the members that the server has. -/
def Synced (initial : Link → Bool) (t : Overlap κ) : Prop :=
  ∀ (roll : Roll) (r : Relation), t.memo.listed? roll.cacheKey = some r →
    ∀ id, r.has id = t.stands initial (roll.link id)

/-- Writes of one link are told in the order in which the server applied them. -/
def InOrder (t : Overlap κ) : Prop :=
  t.told.Pairwise fun i j => ∀ w w', t.writes[i]? = some w → t.writes[j]? = some w' → w.link = w'.link → i < j

/-! ### What the memo knows of the loads -/

/-- What the memo knows by a load: nothing before it is complete, and then what the load has made of the writes
that it has heard of. An answer tells of the writes before it. -/
def Knows (initial : Link → Bool) (t : Overlap κ) (l : RollLoad) (known : Option Relation) : Prop :=
  match l.stage with
  | .asked => known = none
  | .answered writes pointers =>
    known = none ∧ writes ≤ t.writes.length ∧
      l.roll.Lists (fun link => link.after (t.writes.take writes) (initial link)) pointers
  | .complete writes told =>
    writes ≤ t.writes.length ∧ told ≤ t.told.length ∧
      ∃ r, known = some r ∧ ∀ id, r.has id = (l.roll.link id).after (t.heard writes told) (initial (l.roll.link id))
  | .failed => True

structure Sound (initial : Link → Bool) (t : Overlap κ) : Prop where
  apart : t.memo.Apart
  length : t.memo.loads.length = t.loads.length
  index : ∀ (key : String) (load : Nat), t.memo.index.get? key = some load ↔
    ∃ l, t.loads[load]? = some l ∧ l.roll.cacheKey = key ∧ l.stage ≠ .failed
  knows : ∀ (load : Nat) (l : RollLoad), t.loads[load]? = some l → t.Knows initial l (t.memo.relation? load)
  fresh : t.told.Nodup
  numbers : ∀ i ∈ t.told, i < t.writes.length

theorem sound_start : Sound initial ({} : Overlap κ) where
  apart := RelationMemo.apart_empty
  length := rfl
  index key load := by simp
  knows load l hLoad := by cases hLoad
  fresh := List.nodup_nil
  numbers i hi := by cases hi

theorem heard_write (hNumbers : ∀ i ∈ t.told, i < t.writes.length) {writes : Nat} (hWrites : writes ≤ t.writes.length)
    (told : Nat) (w : LinkWrite) : heard { t with writes := t.writes ++ [w] } writes told = t.heard writes told := by
  rw [heard, heard, toldFrom, toldFrom, List.take_append_of_le_length hWrites]
  congr 1
  refine List.filterMap_congr fun i hi => ?_
  exact List.getElem?_append_left (hNumbers i (List.mem_of_mem_drop hi))

theorem heard_tell {told : Nat} (hTold : told ≤ t.told.length) (writes : Nat) {i : Nat} {w : LinkWrite}
    (hWrite : t.writes[i]? = some w) (memo : RelationMemo κ) :
    heard { t with memo, told := t.told ++ [i] } writes told = t.heard writes told ++ [w] := by
  rw [heard, heard, toldFrom, toldFrom, List.drop_append_of_le_length hTold, List.filterMap_append, List.append_assoc]
  simp [hWrite]

theorem Knows.write (hNumbers : ∀ i ∈ t.told, i < t.writes.length) {known : Option Relation}
    (h : t.Knows initial l known) (w : LinkWrite) : Knows initial { t with writes := t.writes ++ [w] } l known := by
  have hLength : t.writes.length ≤ (t.writes ++ [w]).length := by simp
  obtain ⟨roll, stage⟩ := l
  cases stage with
  | asked => exact h
  | answered writes pointers =>
    obtain ⟨hNone, hWrites, hLists⟩ := h
    refine ⟨hNone, hWrites.trans hLength, ?_⟩
    rwa [List.take_append_of_le_length hWrites]
  | complete writes told =>
    obtain ⟨hWrites, hTold, r, hKnown, hHas⟩ := h
    refine ⟨hWrites.trans hLength, hTold, r, hKnown, ?_⟩
    rwa [heard_write hNumbers hWrites]
  | failed => trivial

/-- What has been told goes into what the memo knows, if it knows anything. -/
theorem Knows.tell {known : Option Relation} (h : t.Knows initial l known) {i : Nat} {w : LinkWrite}
    (hWrite : t.writes[i]? = some w) (memo : RelationMemo κ) :
    Knows initial { t with memo, told := t.told ++ [i] } l (known.map fun r => l.roll.follow r w) := by
  obtain ⟨roll, stage⟩ := l
  cases stage with
  | asked =>
    obtain rfl : known = none := h
    rfl
  | answered writes pointers =>
    obtain ⟨rfl, hRest⟩ := h
    exact ⟨rfl, hRest⟩
  | complete writes told =>
    obtain ⟨hWrites, hTold, r, rfl, hHas⟩ := h
    refine ⟨hWrites, ?_, roll.follow r w, rfl, fun id => ?_⟩
    · rw [List.length_append]
      exact Nat.le_add_right_of_le hTold
    · rw [heard_tell hTold writes hWrite, Link.after_append, Roll.has_follow, hHas]
      rfl
  | failed => trivial

/-- A load goes on, or it fails and the memo forgets its key; the others do not notice. -/
theorem Sound.set (h : Sound initial t) (hLoad : t.loads[load]? = some l) (hLive : l.stage ≠ .failed)
    {memo : RelationMemo κ} {stage : LoadStage} (hApart : memo.Apart)
    (hLength : memo.loads.length = t.memo.loads.length)
    (hIndex : ∀ key n, memo.index.get? key = some n ↔
      t.memo.index.get? key = some n ∧ (n = load → stage ≠ .failed))
    (hOthers : ∀ n, load ≠ n → memo.relation? n = t.memo.relation? n)
    (hKnows : t.Knows initial ⟨l.roll, stage⟩ (memo.relation? load)) :
    Sound initial { t with memo, loads := t.loads.set load ⟨l.roll, stage⟩ } where
  apart := hApart
  length := by rw [List.length_set, hLength, h.length]
  index key n := by
    rw [hIndex, h.index, List.getElem?_set]
    obtain ⟨hBound, hGet⟩ := List.getElem?_eq_some_iff.mp hLoad
    by_cases hSame : load = n
    · subst hSame
      simp [hBound, hGet, hLive, and_comm]
    · simp [hSame, Ne.symm hSame]
  knows n l' hLoad' := by
    rw [List.getElem?_set] at hLoad'
    split at hLoad'
    · next hSame =>
      subst hSame
      split at hLoad'
      · cases hLoad'
        exact hKnows
      · cases hLoad'
    · next hOther =>
      rw [hOthers n hOther]
      exact h.knows n l' hLoad'
  fresh := h.fresh
  numbers := h.numbers

/-- The memo changes only in who waits. -/
theorem Sound.wait (h : Sound initial t) {n : Nat} {f : RelationLoad κ → RelationLoad κ}
    (hf : ∀ l, (f l).relation = l.relation) : Sound initial { t with memo := t.memo.update n f } where
  apart := h.apart.update n f
  length := RelationMemo.length_update.trans h.length
  index := h.index
  knows load l hLoad := by
    rw [RelationMemo.relation?_update]
    simp only [hf]
    rw [RelationMemo.relation?, ite_self]
    exact h.knows load l hLoad
  fresh := h.fresh
  numbers := h.numbers

theorem Sound.started (h : Sound initial t) {caller : κ} {memo : RelationMemo κ}
    (hRequest : t.memo.request roll.cacheKey caller = (.start load, memo)) :
    Sound initial { t with memo, loads := t.loads ++ [⟨roll, .asked⟩] } := by
  have hApart := h.apart.request hRequest
  obtain ⟨_, hAnswer, -⟩ | ⟨_, hAnswer, -⟩ | ⟨hAnswer, hIndex, rfl⟩ := RelationMemo.request_cases hRequest
  · cases hAnswer
  · cases hAnswer
  have hConcat {n : Nat} {l : RollLoad} : (t.loads ++ [⟨roll, .asked⟩])[n]? = some l ↔
      t.loads[n]? = some l ∨ n = t.loads.length ∧ l = ⟨roll, .asked⟩ := by
    rw [List.getElem?_append]
    split
    · next hLess => simp [hLess.ne]
    · next hMore =>
      have hPlace : n - t.loads.length = 0 ↔ n = t.loads.length := by omega
      rw [List.getElem?_eq_none (Nat.le_of_not_lt hMore), List.getElem?_singleton]
      simp [hPlace, eq_comm]
  refine ⟨hApart, ?_, fun key n => ?_, fun n l hLoad => ?_, h.fresh, h.numbers⟩
  · simp [h.length]
  · simp only [hConcat, Assoc.get?_set, h.length]
    split
    · next hKey =>
      subst hKey
      constructor
      · rintro ⟨rfl⟩
        exact ⟨_, .inr ⟨rfl, rfl⟩, rfl, nofun⟩
      · rintro ⟨l, hOld | ⟨rfl, -⟩, hKey, hLive⟩
        · rw [(h.index _ _).mpr ⟨l, hOld, hKey, hLive⟩] at hIndex
          cases hIndex
        · rfl
    · next hOther =>
      rw [h.index]
      refine exists_congr fun l => and_congr_left fun hKey => (or_iff_left ?_).symm
      rintro ⟨-, rfl⟩
      exact hOther hKey.1
  · rw [RelationMemo.relation?]
    rcases hConcat.mp hLoad with hOld | ⟨rfl, rfl⟩
    · obtain ⟨hBound, -⟩ := List.getElem?_eq_some_iff.mp hOld
      rw [List.getElem?_append_left (h.length.symm ▸ hBound)]
      exact h.knows n l hOld
    · rw [← h.length, List.getElem?_concat_length]
      rfl

theorem Sound.told (h : Sound initial t) {i : Nat} {w : LinkWrite} (hWrite : t.writes[i]? = some w)
    (hNew : i ∉ t.told) : Sound initial { t with memo := w.apply t.memo, told := t.told ++ [i] } where
  apart := h.apart.apply w
  length := (RelationMemo.length_apply w).trans h.length
  index := by
    rw [RelationMemo.index_apply]
    exact h.index
  knows load l hLoad := by
    obtain ⟨roll, stage⟩ := l
    by_cases hFailed : stage = .failed
    · subst hFailed
      trivial
    have hIndex := (h.index _ load).mpr ⟨_, hLoad, rfl, hFailed⟩
    have hFollows := RelationMemo.listed?_apply h.apart w roll
    rw [RelationMemo.listed?_eq, RelationMemo.listed?_eq, RelationMemo.index_apply, hIndex, Option.bind_some,
      Option.bind_some] at hFollows
    rw [hFollows]
    exact (h.knows load _ hLoad).tell hWrite _
  fresh := List.nodup_append.mpr ⟨h.fresh, List.nodup_singleton i, by
    rintro j hj k hk rfl
    exact hNew (List.mem_singleton.mp hk ▸ hj)⟩
  numbers j hj := by
    rcases List.mem_append.mp hj with hOld | hLast
    · exact h.numbers j hOld
    · rw [List.mem_singleton.mp hLast]
      exact (List.getElem?_eq_some_iff.mp hWrite).1

/-- A load that is complete has heard of the writes before its answer, and makes of them what was answered. -/
theorem Sound.finished (h : Sound initial t) {writes : Nat} {pointers : List Pointer}
    (hLoad : t.loads[load]? = some ⟨roll, .answered writes pointers⟩) :
    Sound initial { t with
      memo := (t.memo.complete roll.cacheKey load (.ok pointers)).2
      loads := t.loads.set load ⟨roll, .complete writes t.told.length⟩ } := by
  obtain ⟨hNone, hWrites, hLists⟩ := h.knows _ _ hLoad
  have hBound : load < t.memo.loads.length := h.length.symm ▸ (List.getElem?_eq_some_iff.mp hLoad).1
  have hHeard : t.heard writes t.told.length = t.writes.take writes := by simp [heard, toldFrom]
  refine h.set hLoad nofun (h.apart.complete _ _ _) RelationMemo.length_update
    (fun key n => (and_iff_left nofun).symm) (fun n hOther => ?_) ?_
  · exact (RelationMemo.relation?_update ..).trans (if_neg hOther)
  · refine ⟨hWrites, Nat.le_refl _, .ofList pointers, ?_, fun id => ?_⟩
    · refine (RelationMemo.relation?_update ..).trans ?_
      rw [if_pos rfl, List.getElem?_eq_getElem hBound]
      rfl
    · rw [hHeard, Bool.eq_iff_iff, Relation.has_ofList hLists.texts]
      exact hLists.links id

/-- The key of a load that fails stands for no load any more. -/
theorem Sound.failed (h : Sound initial t) (e : Error) (hLoad : t.loads[load]? = some l)
    (hRuns : l.stage.runs = true) :
    Sound initial { t with
      memo := (t.memo.complete l.roll.cacheKey load (.error e)).2, loads := t.loads.set load ⟨l.roll, .failed⟩ } := by
  have hLive : l.stage ≠ .failed := by
    intro hFailed
    rw [hFailed] at hRuns
    cases hRuns
  refine h.set hLoad hLive (h.apart.complete _ _ _) RelationMemo.length_update (fun key n => ?_)
    (fun n hOther => (RelationMemo.relation?_update ..).trans (if_neg hOther)) trivial
  change Assoc.get? (Assoc.erase t.memo.index l.roll.cacheKey) key = some n ↔ _
  rw [Assoc.get?_erase]
  split
  · next hKey =>
    -- the key stands for this load alone
    have hIndex := (h.index key load).mpr ⟨l, hLoad, hKey, hLive⟩
    simp [hIndex, eq_comm]
  · next hKey =>
    refine (and_iff_left_of_imp ?_).symm
    rintro hGet rfl
    obtain ⟨l', hLoad', hKey', -⟩ := (h.index key n).mp hGet
    cases hLoad.symm.trans hLoad'
    exact absurd hKey' hKey

theorem Sound.step (h : Sound initial t) (hStep : Step initial t t') : Sound initial t' := by
  cases hStep with
  | start hRequest => exact h.started hRequest
  | find hRequest hFound =>
    obtain ⟨_, -, rfl, -⟩ | ⟨_, -, -, -, rfl⟩ | ⟨hStart, -⟩ := RelationMemo.request_cases hRequest
    · exact h
    · exact h.wait fun _ => rfl
    · exact absurd hStart (hFound _)
  | answer hLoad hLists =>
    have hNone := h.knows _ _ hLoad
    refine h.set hLoad nofun h.apart rfl (fun key n => (and_iff_left nofun).symm) (fun _ _ => rfl) ?_
    refine ⟨hNone, Nat.le_refl _, ?_⟩
    rwa [List.take_length]
  | finish hLoad => exact h.finished hLoad
  | fail e hLoad hRuns => exact h.failed e hLoad hRuns
  | write w =>
    exact { h with
      knows := fun load l hLoad => (h.knows load l hLoad).write h.numbers w
      numbers := fun i hi => by
        rw [List.length_append]
        exact Nat.lt_add_right _ (h.numbers i hi) }
  | tell hWrite hNew => exact h.told hWrite hNew

theorem sound_of_run (hRun : Run initial {} t) : Sound initial t := by
  induction hRun with
  | refl => exact sound_start
  | tail _ hStep ih => exact ih.step hStep

/-- The memo holds what complete loads know, and no more. -/
theorem Sound.listed?_eq_some_iff (h : Sound initial t) (roll : Roll) (r : Relation) :
    t.memo.listed? roll.cacheKey = some r ↔ ∃ load writes told,
      t.loads[load]? = some ⟨roll, .complete writes told⟩ ∧ t.memo.relation? load = some r := by
  rw [RelationMemo.listed?_eq, Option.bind_eq_some_iff]
  constructor
  · rintro ⟨load, hIndex, hKnown⟩
    obtain ⟨⟨roll', stage⟩, hLoad, hKey, hLive⟩ := (h.index _ _).mp hIndex
    obtain rfl := Roll.cacheKey_injective hKey
    have hKnows := h.knows load _ hLoad
    rw [hKnown] at hKnows
    cases stage with
    | asked => cases hKnows
    | answered writes pointers => cases hKnows.1
    | complete writes told => exact ⟨load, writes, told, hLoad, hKnown⟩
    | failed => exact absurd rfl hLive
  · rintro ⟨load, writes, told, hLoad, hKnown⟩
    exact ⟨load, (h.index _ _).mpr ⟨_, hLoad, rfl, nofun⟩, hKnown⟩

/-- Every complete load has heard enough: on each link of its roll, what it has heard of comes to the same as all
writes do. -/
def HeardAll (initial : Link → Bool) (t : Overlap κ) : Prop :=
  ∀ (load : Nat) (roll : Roll) (writes told : Nat), t.loads[load]? = some ⟨roll, .complete writes told⟩ →
    ∀ id, (roll.link id).after (t.heard writes told) (initial (roll.link id)) = t.stands initial (roll.link id)

theorem Sound.synced_iff (h : Sound initial t) : t.Synced initial ↔ t.HeardAll initial := by
  constructor
  · intro hSynced load roll writes told hLoad id
    obtain ⟨-, -, r, hKnown, hHas⟩ := h.knows load _ hLoad
    have hListed := (h.listed?_eq_some_iff roll r).mpr ⟨load, writes, told, hLoad, hKnown⟩
    rw [← hSynced roll r hListed id]
    exact (hHas id).symm
  · intro hHeard roll r hListed id
    obtain ⟨load, writes, told, hLoad, hKnown⟩ := (h.listed?_eq_some_iff roll r).mp hListed
    obtain ⟨-, -, r', hKnown', hHas⟩ := h.knows load _ hLoad
    cases hKnown.symm.trans hKnown'
    exact (hHas id).trans (hHeard load roll writes told hLoad id)

/-! ### When nothing is missed -/

/-- Before a load was complete, the memo was told of no write that came after its answer. -/
def NoneMissed (t : Overlap κ) : Prop :=
  ∀ (load : Nat) (roll : Roll) (writes told : Nat), t.loads[load]? = some ⟨roll, .complete writes told⟩ →
    ∀ i ∈ t.told.take told, i < writes

section Numbers

variable {ws : List LinkWrite} {link : Link}

/-- The number is that of a write of the link. -/
def concerns (ws : List LinkWrite) (link : Link) (i : Nat) : Bool := (ws[i]?).any fun w => w.link = link

def numbered (ws : List LinkWrite) (numbers : List Nat) : List LinkWrite := numbers.filterMap (ws[·]?)

theorem take_eq_numbered (ws : List LinkWrite) (n : Nat) : ws.take n = numbered ws (List.range n) := by
  induction n with
  | zero => rfl
  | succ n ih =>
    rw [List.range_succ, numbered, List.filterMap_append, List.take_add_one, ih]
    cases h : ws[n]? <;> simp [h, numbered]

/-- Only the writes of a link matter to it. -/
theorem after_numbered (numbers : List Nat) (stands : Bool) :
    link.after (numbered ws numbers) stands = link.after (numbered ws (numbers.filter (concerns ws link))) stands := by
  induction numbers generalizing stands with
  | nil => rfl
  | cons i rest ih =>
    cases hWrite : ws[i]? with
    | none => simpa [numbered, concerns, hWrite] using ih stands
    | some w =>
      by_cases hLink : w.link = link
      · simpa [numbered, concerns, hWrite, hLink, Link.after] using ih _
      · simpa [numbered, concerns, hWrite, hLink, Link.after] using ih stands

theorem after_numbered_concat {i : Nat} (hi : concerns ws link i = true) (before before' : List Nat)
    (stands stands' : Bool) :
    link.after (numbered ws (before ++ [i])) stands = link.after (numbered ws (before' ++ [i])) stands' := by
  rw [concerns, Option.any_eq_true] at hi
  obtain ⟨w, hWrite, hLink⟩ := hi
  have hLast (before : List Nat) (stands : Bool) : link.after (numbered ws (before ++ [i])) stands = w.adds := by
    rw [numbered, List.filterMap_append, Link.after_append]
    simp [hWrite, Link.after, of_decide_eq_true hLink]
  rw [hLast, hLast]

end Numbers

/-- In a sound state in which everything was told in order, the writes of a link are told as they were numbered. -/
theorem Sound.told_filter (h : Sound initial t) (hTold : ∀ i < t.writes.length, i ∈ t.told) (hOrder : t.InOrder)
    (link : Link) :
    t.told.filter (concerns t.writes link) = (List.range t.writes.length).filter (concerns t.writes link) := by
  have hPerm : t.told.Perm (List.range t.writes.length) :=
    (List.perm_ext_iff_of_nodup h.fresh List.nodup_range).mpr fun i =>
      ⟨fun hi => List.mem_range.mpr (h.numbers i hi), fun hi => hTold i (List.mem_range.mp hi)⟩
  have hRising : (t.told.filter (concerns t.writes link)).Pairwise (· < ·) := by
    refine List.Pairwise.imp_of_mem (fun {i j} hi hj hBefore => ?_) (List.Pairwise.filter _ hOrder)
    obtain ⟨w, hWrite, hLink⟩ := (Option.any_eq_true _ _).mp (List.mem_filter.mp hi).2
    obtain ⟨w', hWrite', hLink'⟩ := (Option.any_eq_true _ _).mp (List.mem_filter.mp hj).2
    exact hBefore w w' hWrite hWrite' ((of_decide_eq_true hLink).trans (of_decide_eq_true hLink').symm)
  exact List.Perm.eq_of_pairwise (fun i j _ _ hLess hMore => absurd hMore (Nat.lt_asymm hLess)) hRising
    (List.Pairwise.filter _ List.pairwise_lt_range) (hPerm.filter _)

theorem Sound.heardAll (h : Sound initial t) (hTold : ∀ i < t.writes.length, i ∈ t.told) (hOrder : t.InOrder)
    (hMissed : t.NoneMissed) : t.HeardAll initial := by
  intro load roll writes told hLoad id
  obtain ⟨hWrites, -, -⟩ := h.knows load _ hLoad
  have hEarly := hMissed load roll writes told hLoad
  generalize roll.link id = link
  -- what the memo was told about the link, before and after the load was complete, is all writes of the link
  have hSplit : (t.told.take told).filter (concerns t.writes link) ++ (t.told.drop told).filter (concerns t.writes link) =
      (List.range t.writes.length).filter (concerns t.writes link) := by
    rw [← List.filter_append, List.take_append_drop, h.told_filter hTold hOrder]
  have hAll : t.stands initial link = link.after (numbered t.writes
      ((List.range t.writes.length).filter (concerns t.writes link))) (initial link) := by
    rw [stands, ← after_numbered, ← take_eq_numbered, List.take_length]
  have hHeard : link.after (t.heard writes told) (initial link) =
      link.after (numbered t.writes ((t.told.drop told).filter (concerns t.writes link)))
        (link.after (numbered t.writes ((List.range writes).filter (concerns t.writes link))) (initial link)) := by
    rw [heard, Link.after_append, take_eq_numbered, ← after_numbered, ← after_numbered]
    rfl
  rw [hHeard, hAll]
  rcases List.eq_nil_or_concat ((t.told.drop told).filter (concerns t.writes link)) with hNone | ⟨before, i, hLast⟩
  · -- the last write of the link came before the answer
    rw [hNone, List.append_nil] at hSplit
    have hRange : List.range t.writes.length =
        List.range writes ++ (List.range (t.writes.length - writes)).map (writes + ·) := by
      rw [← List.range_add, Nat.add_sub_cancel' hWrites]
    have hLater : ((List.range (t.writes.length - writes)).map (writes + ·)).filter (concerns t.writes link) = [] := by
      refine List.filter_eq_nil_iff.mpr fun i hi hConcerns => ?_
      have hMem : i ∈ (List.range t.writes.length).filter (concerns t.writes link) :=
        List.mem_filter.mpr ⟨hRange ▸ List.mem_append_right _ hi, hConcerns⟩
      rw [← hSplit] at hMem
      have hLess := hEarly i (List.mem_filter.mp hMem).1
      obtain ⟨k, -, rfl⟩ := List.mem_map.mp hi
      omega
    rw [hNone, hRange, List.filter_append, hLater, List.append_nil]
    rfl
  · have hConcerns : concerns t.writes link i = true := by
      have hMem : i ∈ (t.told.drop told).filter (concerns t.writes link) := by simp [hLast]
      exact (List.mem_filter.mp hMem).2
    rw [← hSplit, hLast, List.concat_eq_append, ← List.append_assoc]
    exact after_numbered_concat hConcerns _ _ _ _

/-- Whatever the order in which relations are loaded, written and told of: when all is quiet, the memo has the
members that the server has exactly when every load has heard enough of the writes. It has when no write came
between the answer of a load and its end and was told before that end, and writes of one link are told in order. -/
theorem synced_iff_heardAll (hRun : Run initial {} t) (hQuiet : t.Quiet) :
    (t.Synced initial ↔ t.HeardAll initial) ∧ (t.InOrder → t.NoneMissed → t.Synced initial) := by
  have hSound := sound_of_run hRun
  exact ⟨hSound.synced_iff, fun hOrder hMissed =>
    hSound.synced_iff.mpr (hSound.heardAll hQuiet.writes hOrder hMissed)⟩

def likedNotes : RelationKind := ⟨"likes", "_User", "Note", by decide⟩

/-- The notes that the user likes. -/
def likedByUser : Roll := .members likedNotes "u1"

/-- At first it is one note. -/
def firstLiked (link : Link) : Bool := link = likedByUser.link "a"

/-- Then the user likes another one. -/
def likeSecond : LinkWrite := ⟨likedByUser.link "b", true, []⟩

/-- The relation is asked for. -/
def asked : Overlap String where
  memo := { index := [(likedByUser.cacheKey, 0)], loads := [{ waiting := ["shown"] }] }
  loads := [⟨likedByUser, .asked⟩]

theorem step_asked : Step firstLiked {} asked := @Step.start _ _ _ likedByUser "shown" 0 _ rfl

theorem lists_first : likedByUser.Lists firstLiked [.ofNames "Note" "a"] where
  texts := by simp [Pointer.ofNames]
  links id := by simp [Pointer.ofNames, firstLiked, likedByUser, Roll.link, eq_comm]

/-- The server answers before the write, and the memo is told of the write before it has the answer. -/
theorem not_synced_toldEarly : ∃ t : Overlap String, Run firstLiked {} t ∧ t.Quiet ∧ ¬ t.Synced firstLiked := by
  have hAsked : Run firstLiked {} asked := .single step_asked
  have hAnswered := hAsked.tail (@Step.answer _ _ _ 0 _ _ rfl lists_first)
  have hWritten := hAnswered.tail (.write likeSecond)
  have hTold := hWritten.tail (@Step.tell _ _ _ 0 _ rfl List.not_mem_nil)
  have hEnd := hTold.tail (@Step.finish _ _ _ 0 _ _ _ rfl)
  refine ⟨_, hEnd, ⟨by simp [asked, LoadStage.runs], by simp [asked]⟩, fun hSynced => ?_⟩
  have hSecond := hSynced likedByUser (.ofList [.ofNames "Note" "a"]) rfl "b"
  revert hSecond
  decide +kernel

/-- The same when the memo has the answer before the write. -/
theorem synced_iff_heardAll_toldLate : ∃ t : Overlap String, Run firstLiked {} t ∧ t.Quiet ∧ t.InOrder ∧
    t.NoneMissed ∧ t.Synced firstLiked ∧
    ∃ r, t.memo.listed? likedByUser.cacheKey = some r ∧ r.has "b" = true := by
  have hAsked : Run firstLiked {} asked := .single step_asked
  have hAnswered := hAsked.tail (@Step.answer _ _ _ 0 _ _ rfl lists_first)
  have hComplete := hAnswered.tail (@Step.finish _ _ _ 0 _ _ _ rfl)
  have hWritten := hComplete.tail (.write likeSecond)
  have hEnd := hWritten.tail (@Step.tell _ _ _ 0 _ rfl List.not_mem_nil)
  obtain ⟨t, hRun, hLoads, hWrites, hTimes, r, hListed⟩ : ∃ t : Overlap String, Run firstLiked {} t ∧
      t.loads = [⟨likedByUser, .complete 0 0⟩] ∧ t.writes = [likeSecond] ∧ t.told = [0] ∧
      ∃ r, t.memo.listed? likedByUser.cacheKey = some r :=
    ⟨_, hEnd, rfl, rfl, rfl, _, rfl⟩
  have hQuiet : t.Quiet := ⟨by simp [hLoads, LoadStage.runs], by simp [hWrites, hTimes]⟩
  have hOrder : t.InOrder := by simp [InOrder, hTimes]
  have hMissed : t.NoneMissed := by
    intro load roll writes told hLoad i hi
    rw [hLoads, List.getElem?_singleton] at hLoad
    split at hLoad
    · cases hLoad
      cases hi
    · cases hLoad
  have hSynced := (synced_iff_heardAll hRun hQuiet).2 hOrder hMissed
  refine ⟨t, hRun, hQuiet, hOrder, hMissed, hSynced, r, hListed, ?_⟩
  rw [hSynced likedByUser r hListed, stands, hWrites]
  decide

end Overlap

end RecordCache
