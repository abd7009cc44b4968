import RecordCache.Disk
import RecordCache.Proofs.Assoc
import RecordCache.Proofs.Json.ReadBack

/-!
# What is read has a text

Whatever a blob holds, octets from elsewhere or a document that was written, what is read from it can be written
again.
-/

namespace RecordCache

namespace Json

/-! ### Documents that were written -/

theorem mem_namedParts {parts : List Json} {e : String × Json} (h : e ∈ namedParts parts) : e.2 ∈ parts := by
  fun_induction namedParts parts with
  | case1 name content rest ih =>
    rcases List.mem_cons.mp h with rfl | hRest
    · exact List.mem_cons_of_mem _ List.mem_cons_self
    · exact List.mem_cons_of_mem _ (List.mem_cons_of_mem _ (ih hRest))
  | case2 => cases h

theorem isWritable_ofFields {fields : List (String × Json)} (h : ∀ e ∈ fields, e.2.isWritable = true) :
    (ofFields fields).isWritable = true := by
  rw [ofFields, isWritable, fieldsWritable_iff]
  exact fun e he => h e ((Assoc.mem_merge he).resolve_left List.not_mem_nil)

mutual

/-- Things may have no text, but what is read back in their place has one. -/
theorem isWritable_readBack : ∀ j : Json, j.readBack.isWritable = true
  | .null => rfl
  | .bool _ => rfl
  | .number _ => rfl
  | .string _ => rfl
  | .array items => by
    rw [readBack, isWritable, allWritable_iff]
    exact isWritable_readBackItems items
  | .object fields => by
    rw [readBack, isWritable, fieldsWritable_iff]
    exact isWritable_readBackFields fields
  | .other thing parts => by
    have hParts := isWritable_readBackItems parts
    rw [readBack.eq_def]
    split
    · next hSame => cases hSame
    · next hSame => cases hSame
    · next hSame =>
      cases hSame
      exact isWritable_ofFields fun e he => hParts _ (mem_namedParts he)
    · next hSame =>
      cases hSame
      rwa [isWritable, allWritable_iff]
    · next hNot => exact absurd rfl (hNot _ _)

theorem isWritable_readBackItems : ∀ items : List Json, ∀ j ∈ readBackItems items, j.isWritable = true
  | [] => fun _ h => nomatch h
  | item :: rest => by
    rw [readBackItems]
    exact List.forall_mem_cons.mpr ⟨isWritable_readBack item, isWritable_readBackItems rest⟩

theorem isWritable_readBackFields :
    ∀ fields : List (String × Json), ∀ e ∈ readBackFields fields, e.2.isWritable = true
  | [] => fun _ h => nomatch h
  | (name, value) :: rest => by
    rw [readBackFields]
    exact List.forall_mem_cons.mpr ⟨isWritable_readBack value, isWritable_readBackFields rest⟩

end

/-! ### Texts -/

namespace Reader

/-- With this fuel, the values that are read have a text, -/
def ValuesWritable (fuel : Nat) : Prop := ∀ s j rest, value? fuel s = some (j, rest) → j.isWritable = true

/-- and the contents of fields have one if those before them do, -/
def FieldsWritable (fuel : Nat) : Prop :=
  ∀ seen s fields rest, (∀ e ∈ seen, e.2.isWritable = true) → fields? fuel seen s = some (fields, rest) →
    ∀ e ∈ fields, e.2.isWritable = true

/-- and so have items. -/
def ItemsWritable (fuel : Nat) : Prop :=
  ∀ seen s items rest, (∀ j ∈ seen, j.isWritable = true) → items? fuel seen s = some (items, rest) →
    ∀ j ∈ items, j.isWritable = true

variable {fuel : Nat}

theorem ValuesWritable.succ (hFields : FieldsWritable fuel) (hItems : ItemsWritable fuel) :
    ValuesWritable (fuel + 1) := by
  intro s j rest h
  rw [value?.eq_def] at h
  dsimp only at h
  split at h
  case h_2 =>
    split at h
    · cases h
      rfl
    · obtain ⟨⟨fields, left⟩, hRead, hSame⟩ := Option.map_eq_some_iff.mp h
      cases hSame
      rw [isWritable, fieldsWritable_iff]
      exact hFields _ _ _ _ (fun _ hNone => absurd hNone List.not_mem_nil) hRead
  case h_3 =>
    split at h
    · cases h
      rfl
    · obtain ⟨⟨items, left⟩, hRead, hSame⟩ := Option.map_eq_some_iff.mp h
      cases hSame
      rw [isWritable, allWritable_iff]
      exact hItems _ _ _ _ (fun _ hNone => absurd hNone List.not_mem_nil) hRead
  -- what is left are texts and numbers, and the constants
  all_goals
    first
    | (cases h; rfl)
    | (obtain ⟨_, -, hSame⟩ := Option.map_eq_some_iff.mp h; cases hSame; rfl)

theorem FieldsWritable.succ (hValue : ValuesWritable fuel) (hFields : FieldsWritable fuel) :
    FieldsWritable (fuel + 1) := by
  intro seen s fields rest hSeen h
  rw [fields?.eq_def] at h
  dsimp only at h
  split at h
  case h_2 => cases h
  obtain ⟨⟨name, afterName⟩, -, h⟩ := Option.bind_eq_some_iff.mp h
  dsimp only at h
  split at h
  case h_2 => cases h
  obtain ⟨⟨value, afterValue⟩, hRead, h⟩ := Option.bind_eq_some_iff.mp h
  have hNow : ∀ e ∈ (name, value) :: seen, e.2.isWritable = true :=
    List.forall_mem_cons.mpr ⟨hValue _ _ _ hRead, hSeen⟩
  dsimp only at h
  split at h
  · exact hFields _ _ _ _ hNow h
  · cases h
    intro e he
    exact hNow e (List.mem_reverse.mp ((Assoc.mem_merge he).resolve_left List.not_mem_nil))
  · cases h

theorem ItemsWritable.succ (hValue : ValuesWritable fuel) (hItems : ItemsWritable fuel) :
    ItemsWritable (fuel + 1) := by
  intro seen s items rest hSeen h
  rw [items?.eq_def] at h
  obtain ⟨⟨item, afterItem⟩, hRead, h⟩ := Option.bind_eq_some_iff.mp h
  have hNow : ∀ j ∈ item :: seen, j.isWritable = true := List.forall_mem_cons.mpr ⟨hValue _ _ _ hRead, hSeen⟩
  dsimp only at h
  split at h
  · exact hItems _ _ _ _ hNow h
  · cases h
    exact fun j hj => hNow j (List.mem_reverse.mp hj)
  · cases h

theorem writable (fuel : Nat) : ValuesWritable fuel ∧ FieldsWritable fuel ∧ ItemsWritable fuel := by
  induction fuel with
  | zero => exact ⟨nofun, nofun, nofun⟩
  | succ fuel ih =>
    obtain ⟨hValue, hFields, hItems⟩ := ih
    exact ⟨.succ hFields hItems, .succ hValue hFields, .succ hValue hItems⟩

end Reader

theorem isWritable_of_read? {text : String} {j : Json} (h : read? text = some j) : j.isWritable = true := by
  rw [read?] at h
  split at h
  · next hRead =>
    split at h <;> cases h
    exact (Reader.writable _).1 _ _ _ hRead
  · cases h

end Json

theorem Blob.isWritable_of_json? {b : Blob} {j : Json} (h : b.json? = some j) : j.isWritable = true := by
  cases b with
  | document value =>
    cases h
    exact value.isWritable_readBack
  | octets bytes =>
    obtain ⟨text, -, hRead⟩ := Option.bind_eq_some_iff.mp h
    exact Json.isWritable_of_read? hRead

end RecordCache
