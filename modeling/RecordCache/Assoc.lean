/-!
Entries by key, in the order in which their keys first came. `get?_set` and `get?_erase` say what
the operations do to a lookup, `keys_set` what they do to the order.
-/

namespace RecordCache

abbrev Assoc (κ α : Type) := List (κ × α)

abbrev Fields (α : Type) := Assoc String α

namespace Assoc

variable {κ α : Type} [DecidableEq κ]

def get? : Assoc κ α → κ → Option α
  | [], _ => none
  | (name, value) :: rest, key => if name = key then some value else get? rest key

def contains (entries : Assoc κ α) (key : κ) : Bool := (entries.get? key).isSome

/-- Replaces an entry where it stands; a new one goes to the end. -/
def set : Assoc κ α → κ → α → Assoc κ α
  | [], key, value => [(key, value)]
  | (name, old) :: rest, key, value =>
    if name = key then (key, value) :: rest else (name, old) :: set rest key value

def erase (entries : Assoc κ α) (key : κ) : Assoc κ α := entries.filter fun entry => entry.1 ≠ key

def keys (entries : Assoc κ α) : List κ := entries.map Prod.fst

def merge (entries others : Assoc κ α) : Assoc κ α :=
  others.foldl (fun acc e => set acc e.1 e.2) entries

def ofList (entries : List (κ × α)) : Assoc κ α := merge [] entries

@[simp] theorem get?_nil (key : κ) : get? ([] : Assoc κ α) key = none := rfl

theorem get?_cons (entry : κ × α) (rest : Assoc κ α) (key : κ) :
    get? (entry :: rest) key = if entry.1 = key then some entry.2 else get? rest key := rfl

@[simp] theorem get?_set (entries : Assoc κ α) (key other : κ) (value : α) :
    (entries.set key value).get? other = if key = other then some value else entries.get? other := by
  induction entries with
  | nil => simp [set, get?_cons]
  | cons entry rest ih =>
    obtain ⟨name, old⟩ := entry
    by_cases hName : name = key
    · subst hName
      by_cases hOther : name = other <;> simp [set, get?_cons, hOther]
    · by_cases hOther : name = other
      · subst hOther
        simp [set, get?_cons, hName, Ne.symm hName]
      · simp [set, get?_cons, hName, hOther, ih]

theorem mem_keys_iff (entries : Assoc κ α) (key : κ) :
    key ∈ entries.keys ↔ (entries.get? key).isSome := by
  induction entries with
  | nil => simp [keys]
  | cons entry rest ih =>
    by_cases h : entry.1 = key
    · simp [keys, get?_cons, h]
    · simpa [keys, get?_cons, h, Ne.symm h] using ih

theorem keys_set (entries : Assoc κ α) (key : κ) (value : α) :
    (entries.set key value).keys =
      if key ∈ entries.keys then entries.keys else entries.keys ++ [key] := by
  induction entries with
  | nil => simp [set, keys]
  | cons entry rest ih =>
    obtain ⟨name, old⟩ := entry
    by_cases h : name = key
    · simp [set, keys, h]
    · have hStep : keys (set ((name, old) :: rest) key value) = name :: keys (set rest key value) := by
        simp [set, keys, h]
      rw [hStep, ih]
      by_cases hMem : key ∈ keys rest <;> simp_all [keys, Ne.symm h]

theorem nodup_keys_set {entries : Assoc κ α} (h : entries.keys.Nodup) (key : κ) (value : α) :
    (entries.set key value).keys.Nodup := by
  rw [keys_set]
  split
  · exact h
  · next hMem =>
    rw [List.nodup_append]
    exact ⟨h, by simp, by rintro a ha b hb rfl; simp_all⟩

theorem get?_erase (entries : Assoc κ α) (key other : κ) :
    (entries.erase key).get? other = if key = other then none else entries.get? other := by
  induction entries with
  | nil => simp [erase]
  | cons entry rest ih =>
    obtain ⟨name, value⟩ := entry
    by_cases hName : name = key
    · subst hName
      by_cases hOther : name = other <;> simp_all [erase, get?_cons]
    · by_cases hOther : name = other
      · subst hOther
        simp [erase, get?_cons, hName, Ne.symm hName]
      · simp_all [erase, get?_cons]

end Assoc

end RecordCache
