import RecordCache.Proofs.Relation.Keys
import RecordCache.Proofs.Relation.Memo

/-!
# Whose relations are forgotten

Forgetting an owner looks for its class and its id inside the keys of the memo. Of ids without a slash it finds
the owner's own rolls, and every roll, in either direction, of an id that goes on with a hyphen where the
owner's id ends.
-/

namespace RecordCache

namespace Text

theorem hasPiece_iff (piece text : List Char) : hasPiece piece text = true ↔ piece <:+: text := by
  induction text with
  | nil => rw [hasPiece, List.isEmpty_iff, List.infix_nil]
  | cons c rest ih => rw [hasPiece, Bool.or_eq_true, ih, List.isPrefixOf_iff_prefix, List.infix_cons_iff]

/-- A text with one slash has one place to be divided at. -/
theorem slash_inj {before before' after after' : List Char} (hBefore : '/' ∉ before') (hAfter : '/' ∉ after')
    (h : before ++ '/' :: after = before' ++ '/' :: after') : before = before' ∧ after = after' := by
  induction before generalizing before' with
  | nil =>
    cases before' with
    | nil => exact ⟨rfl, (List.cons_eq_cons.mp h).2⟩
    | cons c more =>
      obtain ⟨rfl, -⟩ := List.cons_eq_cons.mp h
      exact absurd List.mem_cons_self hBefore
  | cons c more ih =>
    cases before' with
    | nil =>
      obtain ⟨-, rfl⟩ := List.cons_eq_cons.mp h
      exact absurd (List.mem_append_right _ List.mem_cons_self) hAfter
    | cons c' more' =>
      obtain ⟨rfl, hRest⟩ := List.cons_eq_cons.mp h
      obtain ⟨rfl, hEnd⟩ := ih (fun hMem => hBefore (List.mem_cons_of_mem _ hMem)) hRest
      exact ⟨rfl, hEnd⟩

theorem not_mem_of_plain {name : List Char} (h : ∀ c ∈ name, isPlainChar c = true) : '/' ∉ name :=
  fun hMem => absurd (h _ hMem) (by decide)

/-- Around the one slash of a text, a piece with a slash is the name before it and the start of what follows. -/
theorem hasPiece_slash_iff {front name name' id rest : List Char} (hName : ∀ c ∈ name, isPlainChar c = true)
    (hName' : ∀ c ∈ name', isPlainChar c = true) (hFront : '/' ∉ front) (hRest : '/' ∉ rest) :
    hasPiece ('-' :: (name ++ '/' :: (id ++ ['-']))) (front ++ '-' :: (name' ++ '/' :: rest)) = true ↔
      name = name' ∧ id ++ ['-'] <+: rest := by
  rw [hasPiece_iff]
  constructor
  · rintro ⟨before, after, h⟩
    have hText : (before ++ '-' :: name) ++ '/' :: (id ++ ['-'] ++ after) = (front ++ '-' :: name') ++ '/' :: rest := by
      simpa using h
    have hSlashless : '/' ∉ front ++ '-' :: name' := by
      simp [hFront, not_mem_of_plain hName']
    obtain ⟨hNames, hEnd⟩ := slash_inj hSlashless hRest hText
    have hReverse := congrArg List.reverse hNames
    simp only [List.reverse_append, List.reverse_cons, List.append_assoc, List.singleton_append] at hReverse
    obtain ⟨hSame, -, -⟩ := append_cons_inj (fun c hc => hName c (List.mem_reverse.mp hc))
      (fun c hc => hName' c (List.mem_reverse.mp hc)) rfl rfl hReverse
    exact ⟨List.reverse_inj.mp hSame, after, hEnd⟩
  · rintro ⟨rfl, after, rfl⟩
    exact ⟨front, after, by simp⟩

/-- What ends at a hyphen begins an id with a name behind it where it is the id, or begins the id. -/
theorem prefix_hyphen_iff {id id' name : List Char} (hName : ∀ c ∈ name, isPlainChar c = true) :
    id ++ ['-'] <+: id' ++ '-' :: name ↔ id' = id ∨ id ++ ['-'] <+: id' := by
  constructor
  · rintro ⟨after, h⟩
    rw [List.append_assoc, List.singleton_append] at h
    obtain ⟨more, rfl, hMore⟩ | ⟨more, rfl, hMore⟩ := List.append_eq_append_iff.mp h
    · cases more with
      | nil => exact .inl (List.append_nil id)
      | cons c more =>
        obtain ⟨rfl, -⟩ := List.cons_eq_cons.mp hMore
        exact .inr ⟨more, by simp⟩
    · cases more with
      | nil => exact .inl (List.append_nil id').symm
      | cons c more =>
        -- the hyphen would stand in the name
        obtain ⟨-, rfl⟩ := List.cons_eq_cons.mp hMore
        exact absurd (hName '-' (List.mem_append_right _ List.mem_cons_self)) (by decide)
  · rintro (rfl | ⟨after, rfl⟩)
    · exact ⟨name, by simp⟩
    · exact ⟨after ++ '-' :: name, by simp⟩

end Text

namespace Roll

def objectId : Roll → String
  | members _ owner => owner
  | owners _ member => member

def objectClass : Roll → String
  | members kind _ => kind.ownerClass
  | owners kind _ => kind.memberClass

/-- Not empty, and without a slash. -/
def isObjectId (id : String) : Bool := id != "" && !id.toList.contains '/'

/-- It keeps the members of a relation of the owner. -/
def isOf (className owner : String) : Roll → Bool
  | members kind id => className == kind.ownerClass && id == owner
  | owners _ _ => false

/-- It is for another id of the class, in either direction, which begins with the owner's id and a hyphen. -/
def resembles (className owner : String) (roll : Roll) : Bool :=
  className == roll.objectClass && (owner.toList ++ ['-']).isPrefixOf roll.objectId.toList

variable {className owner : String} {roll : Roll}

theorem not_mem_of_isObjectId {id : String} (h : isObjectId id = true) : '/' ∉ id.toList := by
  rw [isObjectId, Bool.and_eq_true, Bool.not_eq_true'] at h
  simpa using h.2

theorem not_isOf_of_resembles (h : roll.resembles className owner = true) : roll.isOf className owner = false := by
  cases roll with
  | owners kind member => rfl
  | members kind id =>
    rw [resembles, Bool.and_eq_true, List.isPrefixOf_iff_prefix] at h
    rw [isOf, Bool.and_eq_false_iff, beq_eq_false_iff_ne, beq_eq_false_iff_ne]
    refine .inr fun hSame => ?_
    have hLength := h.2.length_le
    rw [objectId, hSame, List.length_append, List.length_singleton] at hLength
    exact Nat.not_succ_le_self _ hLength

theorem hasPiece_cacheKey (hClass : isPlainName className = true) (hId : isObjectId roll.objectId = true) :
    Text.hasPiece (RelationMemo.ownerPiece ⟨.string className, .string owner⟩).toList roll.cacheKey.toList =
      (roll.isOf className owner || roll.resembles className owner) := by
  have hPiece : (RelationMemo.ownerPiece ⟨.string className, .string owner⟩).toList =
      '-' :: (className.toList ++ '/' :: (owner.toList ++ ['-'])) := by
    simp [RelationMemo.ownerPiece, Json.plainDisplay, toString]
  have hPlain := List.all_eq_true.mp hClass
  rw [hPiece, Bool.eq_iff_iff]
  cases roll with
  | members kind id =>
    have hSlash : '/' ∉ id.toList := not_mem_of_isObjectId hId
    have hRest : '/' ∉ id.toList ++ '-' :: kind.memberClass.toList := by
      simp [hSlash, Text.not_mem_of_plain kind.plain_memberClass]
    rw [toList_cacheKey_members, Text.hasPiece_slash_iff hPlain kind.plain_ownerClass
      (Text.not_mem_of_plain kind.plain_key) hRest, Text.prefix_hyphen_iff kind.plain_memberClass]
    simp [isOf, resembles, objectClass, objectId, and_or_left, String.toList_inj]
  | owners kind member =>
    have hSlash : '/' ∉ member.toList := not_mem_of_isObjectId hId
    have hFront : '/' ∉ kind.key.toList ++ '-' :: kind.ownerClass.toList := by
      simp [Text.not_mem_of_plain kind.plain_key, Text.not_mem_of_plain kind.plain_ownerClass]
    have hText : (owners kind member).cacheKey.toList = (kind.key.toList ++ '-' :: kind.ownerClass.toList) ++
        '-' :: (kind.memberClass.toList ++ '/' :: member.toList) := by
      rw [toList_cacheKey_owners]
      simp
    rw [hText, Text.hasPiece_slash_iff hPlain kind.plain_memberClass hFront hSlash]
    simp [isOf, resembles, objectClass, objectId, String.toList_inj]

end Roll

namespace RelationMemo

open Roll (isObjectId)

variable {κ : Type} {m : RelationMemo κ}

theorem get?_forget (hKeys : m.index.keys.Nodup) (owner : Ref) (key : String) :
    (m.forget owner).index.get? key =
      if Text.hasPiece (ownerPiece owner).toList key.toList && (m.loaded? key).isSome then none
      else m.index.get? key := by
  rw [forget, Assoc.get?_filter hKeys, loaded?]
  cases m.index.get? key with
  | none => simp
  | some load =>
    cases hPiece : Text.hasPiece (ownerPiece owner).toList key.toList <;> cases hLoaded : (m.relation? load).isSome <;>
      simp [Option.filter, hPiece, hLoaded]

/-- Of all rolls of ids without a slash, the complete ones of the owner are gone, and nothing else is. -/
structure ForgetsExactly (className owner : String) (m m' : RelationMemo κ) : Prop where
  removes : ∀ roll : Roll, isObjectId roll.objectId = true → roll.isOf className owner = true →
    (m.loaded? roll.cacheKey).isSome = true → m'.index.get? roll.cacheKey = none
  keeps : ∀ roll : Roll, isObjectId roll.objectId = true → roll.isOf className owner = false →
    m'.index.get? roll.cacheKey = m.index.get? roll.cacheKey
  inFlight : ∀ key, m.loaded? key = none → m'.index.get? key = m.index.get? key
  loads : m'.loads = m.loads

/-- Forgetting an owner forgets its complete rolls and those that resemble them; so it forgets exactly the owner's
as long as no roll that resembles them is complete. -/
theorem forgetsExactly_iff (hKeys : m.index.keys.Nodup) {className : String} (hClass : isPlainName className = true)
    (owner : String) :
    (∀ roll : Roll, isObjectId roll.objectId = true →
      (m.forget ⟨.string className, .string owner⟩).index.get? roll.cacheKey =
        if (roll.isOf className owner || roll.resembles className owner) && (m.loaded? roll.cacheKey).isSome then none
        else m.index.get? roll.cacheKey) ∧
    (ForgetsExactly className owner m (m.forget ⟨.string className, .string owner⟩) ↔
      ∀ roll : Roll, isObjectId roll.objectId = true → roll.resembles className owner = true →
        m.loaded? roll.cacheKey = none) := by
  have hForget (roll : Roll) (hId : isObjectId roll.objectId = true) :
      (m.forget ⟨.string className, .string owner⟩).index.get? roll.cacheKey =
        if (roll.isOf className owner || roll.resembles className owner) && (m.loaded? roll.cacheKey).isSome then none
        else m.index.get? roll.cacheKey := by
    rw [get?_forget hKeys, Roll.hasPiece_cacheKey hClass hId]
  refine ⟨hForget, fun h roll hId hLike => ?_, fun hNone => ⟨?_, ?_, ?_, rfl⟩⟩
  · rw [Option.eq_none_iff_forall_ne_some]
    intro load hLoaded
    have hGone := hForget roll hId
    rw [h.keeps roll hId (Roll.not_isOf_of_resembles hLike), hLike, hLoaded, Bool.or_true,
      (loaded?_eq_some_iff.mp hLoaded).1] at hGone
    cases hGone
  · intro roll hId hOf hLoaded
    rw [hForget roll hId, hOf, hLoaded]
    rfl
  · intro roll hId hOther
    rw [hForget roll hId, hOther, Bool.false_or]
    cases hLike : roll.resembles className owner with
    | false => rfl
    | true =>
      rw [hNone roll hId hLike]
      rfl
  · intro key hRuns
    rw [get?_forget hKeys, hRuns, Option.isSome_none, Bool.and_false]
    rfl

def ofRolls (rolls : List Roll) : RelationMemo String :=
  { index := rolls.zipIdx.map fun entry => (entry.1.cacheKey, entry.2)
    loads := rolls.map fun _ => { relation := some {} } }

theorem mem_of_loaded? {rolls : List Roll} {roll : Roll} {load : Nat}
    (h : (ofRolls rolls).loaded? roll.cacheKey = some load) : roll ∈ rolls := by
  obtain ⟨entry, hEntry, hKey⟩ := List.mem_map.mp (Assoc.mem_of_get? (loaded?_eq_some_iff.mp h).1)
  have hRoll : entry.1 = roll := Roll.cacheKey_injective (congrArg Prod.fst hKey)
  rw [← hRoll]
  exact List.fst_mem_of_mem_zipIdx hEntry

def pinned : RelationKind := ⟨"pinned", "_User", "Note", by decide⟩

/-- Neither id begins with the other one and a hyphen. -/
theorem forgetsExactly_iff_twoUsers :
    (ofRolls [.members pinned "u-1", .members pinned "u-2", .owners pinned "u-1"]).index.keys.Nodup ∧
      isPlainName "_User" = true ∧
      ForgetsExactly "_User" "u-1" (ofRolls [.members pinned "u-1", .members pinned "u-2", .owners pinned "u-1"])
        ((ofRolls [.members pinned "u-1", .members pinned "u-2", .owners pinned "u-1"]).forget
          ⟨.string "_User", .string "u-1"⟩) := by
  refine ⟨by decide +kernel, by decide, ?_⟩
  refine (forgetsExactly_iff (by decide +kernel) (by decide) "u-1").2.mpr fun roll _ hLike => ?_
  rw [Option.eq_none_iff_forall_ne_some]
  intro load hLoaded
  have hMem := mem_of_loaded? hLoaded
  simp only [List.mem_cons, List.not_mem_nil, or_false] at hMem
  rcases hMem with rfl | rfl | rfl <;> cases hLike

/-- The id of the second user begins with the id of the first one and a hyphen. -/
theorem not_forgetsExactly_longerId :
    ¬ ForgetsExactly "_User" "u1" (ofRolls [.members pinned "u1-2"])
      ((ofRolls [.members pinned "u1-2"]).forget ⟨.string "_User", .string "u1"⟩) := by
  intro h
  have hKept := h.keeps (.members pinned "u1-2") (by decide) (by decide)
  revert hKept
  decide +kernel

end RelationMemo

end RecordCache
