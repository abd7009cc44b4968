import RecordCache.Relation.Memo

/-!
# Rolls and their keys

A roll is what the memo keeps an entry for: the members of an owner's relation, or the owners whose relation has
a member. Its key tells it from every other roll, whatever the ids are: the names before an id have neither a
hyphen nor a slash in them, and of the two that follow the name of the owner's class it has the one or the other.
-/

namespace RecordCache

def isPlainChar (c : Char) : Bool := c != '-' && c != '/'

/-- Neither a hyphen nor a slash, as in names of letters, digits and underscores. -/
def isPlainName (name : String) : Bool := name.toList.all isPlainChar

/-- A relation between two classes. -/
@[ext]
structure RelationKind where
  key : String
  ownerClass : String
  memberClass : String
  plain : (isPlainName key && isPlainName ownerClass && isPlainName memberClass) = true
  deriving DecidableEq

inductive Roll
  | members (kind : RelationKind) (owner : String)
  | owners (kind : RelationKind) (member : String)
  deriving DecidableEq

namespace Text

/-- Where two texts begin with names that end at a mark, the names and the marks are the same. -/
theorem append_cons_inj {name name' rest rest' : List Char} {mark mark' : Char}
    (hName : ∀ c ∈ name, isPlainChar c = true) (hName' : ∀ c ∈ name', isPlainChar c = true)
    (hMark : isPlainChar mark = false) (hMark' : isPlainChar mark' = false) (h : name ++ mark :: rest = name' ++ mark' :: rest') :
    name = name' ∧ mark = mark' ∧ rest = rest' := by
  induction name generalizing name' with
  | nil =>
    cases name' with
    | nil => exact ⟨rfl, List.cons_eq_cons.mp h⟩
    | cons c more =>
      obtain ⟨rfl, -⟩ := List.cons_eq_cons.mp h
      rw [hName' _ List.mem_cons_self] at hMark
      cases hMark
  | cons c more ih =>
    cases name' with
    | nil =>
      obtain ⟨rfl, -⟩ := List.cons_eq_cons.mp h
      rw [hName _ List.mem_cons_self] at hMark'
      cases hMark'
    | cons c' more' =>
      obtain ⟨rfl, hRest⟩ := List.cons_eq_cons.mp h
      obtain ⟨rfl, hEnd⟩ := ih (fun d hd => hName d (List.mem_cons_of_mem _ hd))
        (fun d hd => hName' d (List.mem_cons_of_mem _ hd)) hRest
      exact ⟨rfl, hEnd⟩

end Text

namespace RelationKind

theorem plain_key (kind : RelationKind) : ∀ c ∈ kind.key.toList, isPlainChar c = true := by
  have hNames := kind.plain
  simp only [Bool.and_eq_true, and_assoc] at hNames
  exact List.all_eq_true.mp hNames.1

theorem plain_ownerClass (kind : RelationKind) : ∀ c ∈ kind.ownerClass.toList, isPlainChar c = true := by
  have hNames := kind.plain
  simp only [Bool.and_eq_true, and_assoc] at hNames
  exact List.all_eq_true.mp hNames.2.1

theorem plain_memberClass (kind : RelationKind) : ∀ c ∈ kind.memberClass.toList, isPlainChar c = true := by
  have hNames := kind.plain
  simp only [Bool.and_eq_true, and_assoc] at hNames
  exact List.all_eq_true.mp hNames.2.2

def ownerRef (kind : RelationKind) (id : String) : Ref := ⟨.string kind.ownerClass, .string id⟩

def memberRef (kind : RelationKind) (id : String) : Ref := ⟨.string kind.memberClass, .string id⟩

end RelationKind

namespace Roll

open RelationMemo (keyFor inverseKeyFor)

/-- What the memo knows the roll by. -/
def cacheKey : Roll → String
  | members kind owner => keyFor kind.key (kind.ownerRef owner) kind.memberClass
  | owners kind member => inverseKeyFor kind.key kind.ownerClass (kind.memberRef member)

theorem toList_cacheKey_members (kind : RelationKind) (owner : String) :
    (members kind owner).cacheKey.toList = kind.key.toList ++ '-' :: (kind.ownerClass.toList ++
      '/' :: (owner.toList ++ '-' :: kind.memberClass.toList)) := by
  simp [cacheKey, keyFor, RelationKind.ownerRef, Json.plainDisplay, toString]

theorem toList_cacheKey_owners (kind : RelationKind) (member : String) :
    (owners kind member).cacheKey.toList = kind.key.toList ++ '-' :: (kind.ownerClass.toList ++
      '-' :: (kind.memberClass.toList ++ '/' :: member.toList)) := by
  simp [cacheKey, inverseKeyFor, RelationKind.memberRef, Json.plainDisplay, toString]

/-- From the front, the names are told by the marks behind them; the class of the members, by the last hyphen. -/
theorem members_inj {kind kind' : RelationKind} {owner owner' : String}
    (h : (members kind owner).cacheKey = (members kind' owner').cacheKey) : kind = kind' ∧ owner = owner' := by
  have hText := congrArg String.toList h
  rw [toList_cacheKey_members, toList_cacheKey_members] at hText
  obtain ⟨hKey, -, hText⟩ := Text.append_cons_inj kind.plain_key kind'.plain_key rfl rfl hText
  obtain ⟨hOwnerClass, -, hText⟩ := Text.append_cons_inj kind.plain_ownerClass kind'.plain_ownerClass rfl rfl hText
  have hReverse := congrArg List.reverse hText
  simp only [List.reverse_append, List.reverse_cons, List.append_assoc, List.singleton_append] at hReverse
  obtain ⟨hMemberClass, -, hOwner⟩ := Text.append_cons_inj
    (fun c hc => kind.plain_memberClass c (List.mem_reverse.mp hc))
    (fun c hc => kind'.plain_memberClass c (List.mem_reverse.mp hc)) rfl rfl hReverse
  exact ⟨RelationKind.ext (String.toList_inj.mp hKey) (String.toList_inj.mp hOwnerClass)
    (String.toList_inj.mp (List.reverse_inj.mp hMemberClass)), String.toList_inj.mp (List.reverse_inj.mp hOwner)⟩

theorem owners_inj {kind kind' : RelationKind} {member member' : String}
    (h : (owners kind member).cacheKey = (owners kind' member').cacheKey) : kind = kind' ∧ member = member' := by
  have hText := congrArg String.toList h
  rw [toList_cacheKey_owners, toList_cacheKey_owners] at hText
  obtain ⟨hKey, -, hText⟩ := Text.append_cons_inj kind.plain_key kind'.plain_key rfl rfl hText
  obtain ⟨hOwnerClass, -, hText⟩ := Text.append_cons_inj kind.plain_ownerClass kind'.plain_ownerClass rfl rfl hText
  obtain ⟨hMemberClass, -, hMember⟩ :=
    Text.append_cons_inj kind.plain_memberClass kind'.plain_memberClass rfl rfl hText
  exact ⟨RelationKind.ext (String.toList_inj.mp hKey) (String.toList_inj.mp hOwnerClass)
    (String.toList_inj.mp hMemberClass), String.toList_inj.mp hMember⟩

/-- The name of the owner's class ends at a slash in the one, and at a hyphen in the other. -/
theorem members_ne_owners (kind kind' : RelationKind) (owner member : String) :
    (members kind owner).cacheKey ≠ (owners kind' member).cacheKey := by
  intro h
  have hText := congrArg String.toList h
  rw [toList_cacheKey_members, toList_cacheKey_owners] at hText
  obtain ⟨-, -, hText⟩ := Text.append_cons_inj kind.plain_key kind'.plain_key rfl rfl hText
  obtain ⟨-, hMark, -⟩ := Text.append_cons_inj kind.plain_ownerClass kind'.plain_ownerClass rfl rfl hText
  cases hMark

theorem cacheKey_injective : Function.Injective cacheKey := by
  intro roll roll' h
  cases roll with
  | members kind owner =>
    cases roll' with
    | members kind' owner' =>
      obtain ⟨rfl, rfl⟩ := members_inj h
      rfl
    | owners kind' member' => exact absurd h (members_ne_owners _ _ _ _)
  | owners kind member =>
    cases roll' with
    | members kind' owner' => exact absurd h.symm (members_ne_owners _ _ _ _)
    | owners kind' member' =>
      obtain ⟨rfl, rfl⟩ := owners_inj h
      rfl

end Roll

namespace RelationMemo

variable {key key' ownerClass ownerClass' memberClass memberClass' : String}

/-- Whatever the ids are, the key of an entry tells its relation, both classes and the id, and which of the two
directions it is for. -/
theorem keys_tell_all
    (h : (isPlainName key && isPlainName ownerClass && isPlainName memberClass) = true)
    (h' : (isPlainName key' && isPlainName ownerClass' && isPlainName memberClass') = true) (id id' : String) :
    (keyFor key ⟨.string ownerClass, .string id⟩ memberClass =
        keyFor key' ⟨.string ownerClass', .string id'⟩ memberClass' ↔
      key = key' ∧ ownerClass = ownerClass' ∧ id = id' ∧ memberClass = memberClass') ∧
    (inverseKeyFor key ownerClass ⟨.string memberClass, .string id⟩ =
        inverseKeyFor key' ownerClass' ⟨.string memberClass', .string id'⟩ ↔
      key = key' ∧ ownerClass = ownerClass' ∧ memberClass = memberClass' ∧ id = id') ∧
    keyFor key ⟨.string ownerClass, .string id⟩ memberClass ≠
      inverseKeyFor key' ownerClass' ⟨.string memberClass', .string id'⟩ := by
  let kind : RelationKind := ⟨key, ownerClass, memberClass, h⟩
  let kind' : RelationKind := ⟨key', ownerClass', memberClass', h'⟩
  refine ⟨⟨fun hSame => ?_, ?_⟩, ⟨fun hSame => ?_, ?_⟩, Roll.members_ne_owners kind kind' id id'⟩
  · have hKeys : (Roll.members kind id).cacheKey = (Roll.members kind' id').cacheKey := hSame
    obtain ⟨hKind, hId⟩ := Roll.members_inj hKeys
    obtain ⟨hKey, hOwner, hMember⟩ := RelationKind.ext_iff.mp hKind
    exact ⟨hKey, hOwner, hId, hMember⟩
  · rintro ⟨rfl, rfl, rfl, rfl⟩
    rfl
  · have hKeys : (Roll.owners kind id).cacheKey = (Roll.owners kind' id').cacheKey := hSame
    obtain ⟨hKind, hId⟩ := Roll.owners_inj hKeys
    obtain ⟨hKey, hOwner, hMember⟩ := RelationKind.ext_iff.mp hKind
    exact ⟨hKey, hOwner, hMember, hId⟩
  · rintro ⟨rfl, rfl, rfl, rfl⟩
    rfl

/-- The ids look as if a class and an id followed. -/
theorem keys_tell_all_misleading :
    (isPlainName "likes" && isPlainName "_User" && isPlainName "Note") = true ∧
    keyFor "likes" ⟨.string "_User", .string "u1"⟩ "Note" ≠
      keyFor "likes" ⟨.string "_User", .string "u1-Note/u1"⟩ "Note" ∧
    inverseKeyFor "likes" "_User" ⟨.string "Note", .string "a"⟩ ≠
      inverseKeyFor "likes" "_User" ⟨.string "Note", .string "a/_User-Note/a"⟩ ∧
    keyFor "likes" ⟨.string "_User", .string "Note/u1"⟩ "Note" ≠
      inverseKeyFor "likes" "_User" ⟨.string "Note", .string "u1-Note"⟩ := by
  have hPlain : (isPlainName "likes" && isPlainName "_User" && isPlainName "Note") = true := by decide
  obtain ⟨hMembers, -, -⟩ := keys_tell_all hPlain hPlain "u1" "u1-Note/u1"
  obtain ⟨-, hOwners, -⟩ := keys_tell_all hPlain hPlain "a" "a/_User-Note/a"
  obtain ⟨-, -, hDirections⟩ := keys_tell_all hPlain hPlain "Note/u1" "u1-Note"
  refine ⟨hPlain, fun hSame => ?_, fun hSame => ?_, hDirections⟩
  · exact absurd (hMembers.mp hSame).2.2.1 (by decide)
  · exact absurd (hOwners.mp hSame).2.2.2 (by decide)

end RelationMemo

end RecordCache
