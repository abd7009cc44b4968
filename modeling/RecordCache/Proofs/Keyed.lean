import Mathlib.Data.List.Induction
import RecordCache.Proofs.Assoc
import RecordCache.Scalar

/-!
# Keyed entries

Where the contents come from that are read from keyed entries, or that are put into them. Entries whose keys are
texts are plain fields.
-/

namespace RecordCache

namespace Scalar

theorem sameKey_string (key : Scalar) (name : String) : key.sameKey (.string name) = (key == .string name) := by
  cases key <;> simp [sameKey, json, Json.alike, Json.bothNaN, Json.isNaN, Json.same, Json.sameScalar, Json.numeric?]

theorem string_sameKey (name : String) (key : Scalar) : (string name).sameKey key = (key == .string name) := by
  rw [Bool.eq_iff_iff, beq_iff_eq, @eq_comm Scalar]
  cases key <;> simp [sameKey, json, Json.alike, Json.bothNaN, Json.isNaN, Json.same, Json.sameScalar, Json.numeric?]

end Scalar

namespace Keyed

theorem content_of_fields? {entries : Keyed Json} {fields : Fields Json} (h : entries.fields? = some fields)
    {e : String × Json} (he : e ∈ fields) : ∃ e' ∈ entries, e'.2 = e.2 := by
  induction entries generalizing fields with
  | nil =>
    cases h
    cases he
  | cons first rest ih =>
    obtain ⟨name, content⟩ := first
    rw [fields?, List.mapM_cons] at h
    obtain ⟨field, hField, h⟩ := Option.bind_eq_some_iff.mp h
    obtain ⟨others, hOthers, h⟩ := Option.bind_eq_some_iff.mp h
    cases h
    obtain ⟨text, -, rfl⟩ := Option.map_eq_some_iff.mp hField
    rcases List.mem_cons.mp he with rfl | hMem
    · exact ⟨_, List.mem_cons_self, rfl⟩
    · obtain ⟨e', he', hSame⟩ := ih hOthers hMem
      exact ⟨e', List.mem_cons_of_mem _ he', hSame⟩

theorem content_of_content? {entries : Keyed Json} {key content : Json}
    (h : Json.content? (entries.flatMap fun e => [e.1.json, e.2]) key = some content) :
    ∃ e ∈ entries, e.2 = content := by
  induction entries with
  | nil => cases h
  | cons first rest ih =>
    rw [List.flatMap_cons, List.cons_append, List.singleton_append, Json.content?] at h
    split at h
    · cases h
      exact ⟨first, List.mem_cons_self, rfl⟩
    · obtain ⟨e, he, hSame⟩ := ih h
      exact ⟨e, List.mem_cons_of_mem _ he, hSame⟩

theorem content_of_get? {entries : Keyed Json} {key : String} {content : Json}
    (h : (Keyed.json entries).get? key = some content) : ∃ e ∈ entries, e.2 = content := by
  unfold Keyed.json at h
  split at h
  · next fields hFields => exact content_of_fields? hFields (Assoc.mem_of_get? h)
  · exact content_of_content? h

theorem mem_ofList {entries : List (Scalar × Json)} {e : Scalar × Json} (h : e ∈ Keyed.ofList entries) :
    ∃ e' ∈ entries, e'.2 = e.2 := by
  suffices hAll : ∀ acc : Keyed Json, e ∈ entries.foldl (fun acc e => Keyed.put acc e.1 e.2) acc →
      e ∈ acc ∨ ∃ e' ∈ entries, e'.2 = e.2 by
    exact (hAll [] h).resolve_left (List.not_mem_nil)
  clear h
  induction entries with
  | nil => exact fun acc h => .inl h
  | cons first rest ih =>
    intro acc h
    rcases ih _ h with hMem | ⟨e', he', hSame⟩
    · rcases Assoc.mem_set hMem with hOld | rfl
      · exact .inl hOld
      · exact .inr ⟨first, List.mem_cons_self, rfl⟩
    · exact .inr ⟨e', List.mem_cons_of_mem _ he', hSame⟩

theorem mem_ofParts {parts : List Json} {e : Scalar × Json} (h : e ∈ ofParts parts) : e.2 ∈ parts := by
  fun_induction ofParts parts with
  | case1 name content rest ih =>
    rcases List.mem_cons.mp h with rfl | hRest
    · exact List.mem_cons_of_mem _ List.mem_cons_self
    · exact List.mem_cons_of_mem _ (List.mem_cons_of_mem _ (ih hRest))
  | case2 => cases h

/-! ### Fields -/

variable {α : Type}

theorem fields?_ofFields (fields : Fields α) : (ofFields fields).fields? = some fields := by
  induction fields with
  | nil => rfl
  | cons entry rest ih =>
    rw [fields?, ofFields] at ih ⊢
    rw [List.map_cons, List.mapM_cons, ih]
    rfl

theorem json_ofFields (fields : Fields Json) : (ofFields fields).json = .object fields := by
  rw [Keyed.json, fields?_ofFields]

theorem ofFields_set (fields : Fields α) (key : String) (value : α) :
    ofFields (fields.set key value) = Assoc.set (ofFields fields) (.string key) value := by
  induction fields with
  | nil => rfl
  | cons entry rest ih =>
    obtain ⟨name, old⟩ := entry
    have hFirst : ofFields ((name, old) :: rest) = (.string name, old) :: ofFields rest := rfl
    by_cases hName : name = key
    · subst hName
      simp [Assoc.set, ofFields]
    · simp [hFirst, Assoc.set, hName, ← ih]
      rfl

theorem ofFields_merge (fields others : Fields α) :
    ofFields (fields.merge others) = Assoc.merge (ofFields fields) (ofFields others) := by
  induction others generalizing fields with
  | nil => rfl
  | cons entry rest ih =>
    change ofFields (Assoc.merge (fields.set entry.1 entry.2) rest) = _
    rw [ih, ofFields_set]
    rfl

theorem ofFields_append (fields others : Fields α) : ofFields (fields ++ others) = ofFields fields ++ ofFields others :=
  List.map_append

theorem put_string (entries : Keyed α) (name : String) (value : α) :
    put entries (.string name) value = Assoc.set entries (.string name) value := by
  have hFound : (entries.keys.find? (Scalar.string name).sameKey).getD (.string name) = .string name := by
    cases h : entries.keys.find? (Scalar.string name).sameKey with
    | none => rfl
    | some key =>
      have hLike := List.find?_some h
      rw [Scalar.string_sameKey] at hLike
      exact eq_of_beq hLike
  rw [put, hFound]

theorem ofList_ofFields {fields : Fields α} (h : fields.keys.Nodup) : ofList (ofFields fields) = ofFields fields := by
  induction fields using List.reverseRecOn with
  | nil => rfl
  | append_singleton rest entry ih =>
    rw [Assoc.keys, List.map_append, List.nodup_append] at h
    obtain ⟨hRest, -, hApart⟩ := h
    have hNew : Assoc.get? (ofFields rest) (.string entry.1) = none := by
      rw [Assoc.get?_eq_none_iff]
      intro hMem
      obtain ⟨e, he, hKey⟩ := List.mem_map.mp hMem
      obtain ⟨field, hField, rfl⟩ := List.mem_map.mp he
      exact hApart _ (List.mem_map_of_mem hField) _ List.mem_cons_self (Scalar.string.inj hKey)
    have hLast : ofFields (rest ++ [entry]) = ofFields rest ++ [(.string entry.1, entry.2)] := List.map_append
    rw [hLast, ofList, List.foldl_append]
    change put (ofList (ofFields rest)) (.string entry.1) entry.2 = _
    rw [ih hRest, put_string, Assoc.set_of_get?_eq_none hNew]

end Keyed

end RecordCache
