import RecordCache.Assoc

/-!
# Entries and lookups

What a lookup says about the entries, and what merging does to both.
-/

namespace RecordCache.Assoc

variable {κ α : Type} [DecidableEq κ]

theorem mem_of_get? {entries : Assoc κ α} {key : κ} {value : α} (h : entries.get? key = some value) :
    (key, value) ∈ entries := by
  induction entries with
  | nil => cases h
  | cons entry rest ih =>
    rw [get?_cons] at h
    split at h
    · next hKey =>
      cases h
      rw [← hKey]
      exact List.mem_cons_self
    · exact List.mem_cons_of_mem _ (ih h)

theorem get?_of_mem {entries : Assoc κ α} (hKeys : entries.keys.Nodup) {key : κ} {value : α}
    (h : (key, value) ∈ entries) : entries.get? key = some value := by
  induction entries with
  | nil => cases h
  | cons entry rest ih =>
    obtain ⟨hFirst, hRest⟩ := List.nodup_cons.mp hKeys
    rw [get?_cons]
    rcases List.mem_cons.mp h with rfl | hMem
    · simp
    · rw [if_neg, ih hRest hMem]
      rintro rfl
      exact hFirst (List.mem_map.mpr ⟨_, hMem, rfl⟩)

theorem get?_eq_none_iff (entries : Assoc κ α) (key : κ) :
    entries.get? key = none ↔ key ∉ entries.keys := by
  rw [mem_keys_iff]
  simp

theorem erase_of_get?_eq_none {entries : Assoc κ α} {key : κ} (h : entries.get? key = none) :
    entries.erase key = entries := by
  have hKey := (get?_eq_none_iff entries key).mp h
  refine List.filter_eq_self.mpr fun entry hEntry => decide_eq_true ?_
  rintro rfl
  exact hKey (List.mem_map.mpr ⟨entry, hEntry, rfl⟩)

theorem set_of_get?_eq_none {entries : Assoc κ α} {key : κ} (h : entries.get? key = none) (value : α) :
    entries.set key value = entries ++ [(key, value)] := by
  induction entries with
  | nil => rfl
  | cons entry rest ih =>
    obtain ⟨name, old⟩ := entry
    rw [get?_cons] at h
    split at h
    · cases h
    · next hName => rw [set, if_neg hName, ih h, List.cons_append]

omit [DecidableEq κ] in
theorem mem_keys_of_mem {entries : Assoc κ α} {entry : κ × α} (h : entry ∈ entries) :
    entry.1 ∈ entries.keys :=
  List.mem_map.mpr ⟨entry, h, rfl⟩

theorem get?_filter {entries : Assoc κ α} (hKeys : entries.keys.Nodup) (p : κ × α → Bool) (key : κ) :
    get? (entries.filter p) key = (entries.get? key).filter fun value => p (key, value) := by
  induction entries with
  | nil => rfl
  | cons entry rest ih =>
    obtain ⟨name, value⟩ := entry
    obtain ⟨hFirst, hRest⟩ := List.nodup_cons.mp hKeys
    rw [List.filter_cons, get?_cons]
    by_cases hKey : name = key
    · subst hKey
      have hNone : get? rest name = none := (get?_eq_none_iff _ _).mpr hFirst
      cases hp : p (name, value) <;> simp [Option.filter, hp, get?_cons, ih hRest, hNone]
    · cases hp : p (name, value) <;> simp [get?_cons, hKey, ih hRest]

theorem set_set (entries : Assoc κ α) (key : κ) (first second : α) :
    (entries.set key first).set key second = entries.set key second := by
  induction entries with
  | nil => simp [set]
  | cons entry rest ih => by_cases h : entry.1 = key <;> simp [set, h, ih]

theorem get?_map_snd {β : Type} (entries : Assoc κ α) (f : α → β) (key : κ) :
    Assoc.get? (entries.map fun e => (e.1, f e.2)) key = (entries.get? key).map f := by
  induction entries with
  | nil => rfl
  | cons entry rest ih =>
    rw [List.map_cons, get?_cons, get?_cons, ih]
    split <;> rfl

theorem get?_merge (entries : Assoc κ α) {others : Assoc κ α} (h : others.keys.Nodup) (key : κ) :
    (entries.merge others).get? key = (others.get? key).or (entries.get? key) := by
  induction others generalizing entries with
  | nil => rfl
  | cons entry rest ih =>
    obtain ⟨hFirst, hRest⟩ := List.nodup_cons.mp h
    change (Assoc.merge (entries.set entry.1 entry.2) rest).get? key = _
    rw [ih _ hRest, get?_cons, get?_set]
    by_cases hKey : entry.1 = key
    · subst hKey
      have hNone : Assoc.get? rest entry.1 = none := (get?_eq_none_iff _ _).mpr hFirst
      simp [hNone]
    · simp [hKey]

theorem merge_append (entries others others' : Assoc κ α) :
    entries.merge (others ++ others') = (entries.merge others).merge others' := List.foldl_append

theorem get?_merge_eq (entries others : Assoc κ α) (key : κ) :
    (entries.merge others).get? key = ((ofList others).get? key).or (entries.get? key) := by
  induction others generalizing entries with
  | nil => rfl
  | cons entry rest ih =>
    have hFirst : ofList (entry :: rest) = Assoc.merge [(entry.1, entry.2)] rest := rfl
    change (Assoc.merge (entries.set entry.1 entry.2) rest).get? key = _
    rw [hFirst, ih, ih, get?_set, get?_cons, get?_nil]
    cases (ofList rest).get? key <;> by_cases hKey : entry.1 = key <;> simp [hKey]

theorem isSome_get?_ofList (others : Assoc κ α) (key : κ) :
    ((ofList others).get? key).isSome ↔ key ∈ others.keys := by
  induction others with
  | nil => simp [ofList, merge, keys]
  | cons entry rest ih =>
    have hFirst : ofList (entry :: rest) = Assoc.merge [(entry.1, entry.2)] rest := rfl
    have hKeys : keys (entry :: rest) = entry.1 :: keys rest := rfl
    rw [hFirst, get?_merge_eq, Option.isSome_or, Bool.or_eq_true, ih, get?_cons, hKeys, List.mem_cons]
    by_cases hKey : entry.1 = key
    · simp [hKey]
    · simp [hKey, Ne.symm hKey]

/-- What is merged into both decides on its own keys only. -/
theorem get?_merge_eq_iff (entries entries' others : Assoc κ α) :
    (∀ key, (entries.merge others).get? key = (entries'.merge others).get? key) ↔
      ∀ key ∉ others.keys, entries.get? key = entries'.get? key := by
  refine forall_congr' fun key => ?_
  rw [get?_merge_eq, get?_merge_eq, ← isSome_get?_ofList]
  cases (ofList others).get? key <;> simp

theorem nodup_keys_merge {entries : Assoc κ α} (h : entries.keys.Nodup) (others : Assoc κ α) :
    (entries.merge others).keys.Nodup := by
  induction others generalizing entries with
  | nil => exact h
  | cons entry rest ih => exact ih (nodup_keys_set h entry.1 entry.2)

theorem get?_merge_ofList (entries others : Assoc κ α) (key : κ) :
    (entries.merge (ofList others)).get? key = (entries.merge others).get? key := by
  have hKeys : (ofList others).keys.Nodup :=
    nodup_keys_merge (show (keys ([] : Assoc κ α)).Nodup from List.nodup_nil) others
  rw [get?_merge entries hKeys, get?_merge_eq]

theorem mem_set {entries : Assoc κ α} {key : κ} {value : α} {entry : κ × α}
    (h : entry ∈ entries.set key value) : entry ∈ entries ∨ entry = (key, value) := by
  induction entries with
  | nil => simpa [set] using h
  | cons first rest ih =>
    obtain ⟨name, old⟩ := first
    rw [set] at h
    split at h
    · rcases List.mem_cons.mp h with rfl | hMem
      · exact .inr rfl
      · exact .inl (List.mem_cons_of_mem _ hMem)
    · rcases List.mem_cons.mp h with rfl | hMem
      · exact .inl List.mem_cons_self
      · exact (ih hMem).imp_left (List.mem_cons_of_mem _)

theorem mem_merge {entries others : Assoc κ α} {entry : κ × α} (h : entry ∈ entries.merge others) :
    entry ∈ entries ∨ entry ∈ others := by
  induction others generalizing entries with
  | nil => exact .inl h
  | cons first rest ih =>
    rcases ih h with hMem | hMem
    · rcases mem_set hMem with hOld | rfl
      · exact .inl hOld
      · exact .inr List.mem_cons_self
    · exact .inr (List.mem_cons_of_mem _ hMem)

/-! ### Around a key -/

section Around

variable {key other : κ}

/-- The entries before and after a key, whatever its value, once another key is set. -/
theorem exists_set_around (h : other ≠ key) (value : α) (before after : Assoc κ α) :
    ∃ before' after' : Assoc κ α, ∀ v,
      set (before ++ (key, v) :: after) other value = before' ++ (key, v) :: after' := by
  induction before with
  | nil => exact ⟨[], after.set other value, fun v => by simp [set, Ne.symm h]⟩
  | cons entry rest ih =>
    obtain ⟨before', after', hRest⟩ := ih
    by_cases hEntry : entry.1 = other
    · exact ⟨(other, value) :: rest, after, fun v => by simp [set, hEntry]⟩
    · exact ⟨entry :: before', after', fun v => by simp [set, hEntry, hRest]⟩

theorem exists_merge_around {others : Assoc κ α} (h : key ∉ others.keys) (before after : Assoc κ α) :
    ∃ before' after' : Assoc κ α, ∀ v, merge (before ++ (key, v) :: after) others = before' ++ (key, v) :: after' := by
  induction others generalizing before after with
  | nil => exact ⟨before, after, fun v => rfl⟩
  | cons entry rest ih =>
    obtain ⟨hFirst, hRest⟩ := not_or.mp (mt List.mem_cons.mpr h)
    obtain ⟨before₁, after₁, hSet⟩ := exists_set_around (Ne.symm hFirst) entry.2 before after
    obtain ⟨before₂, after₂, hMerge⟩ := ih hRest before₁ after₁
    refine ⟨before₂, after₂, fun v => ?_⟩
    rw [← hMerge, ← hSet]
    rfl

theorem get?_around (h : other ≠ key) (before after : Assoc κ α) (v : α) :
    get? (before ++ (key, v) :: after) other = get? (before ++ after) other := by
  induction before with
  | nil => exact if_neg (Ne.symm h)
  | cons entry rest ih => rw [List.cons_append, List.cons_append, get?_cons, get?_cons, ih]

end Around

end RecordCache.Assoc
