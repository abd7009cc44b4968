import RecordCache.Json
import RecordCache.Text.CharClass

/-!
# Texts in pieces

A text that is joined of pieces without the separator splits into these pieces, and a list of texts is read back
as such.
-/

namespace RecordCache

namespace Text

theorem splitOn_of_not_mem {separator : Char} {piece : List Char} (h : separator ∉ piece) :
    splitOn separator piece = [piece] := by
  induction piece with
  | nil => rfl
  | cons c rest ih =>
    rw [splitOn, if_neg (List.ne_of_not_mem_cons h).symm, ih (List.not_mem_of_not_mem_cons h)]

theorem splitOn_append {separator : Char} {piece : List Char} (h : separator ∉ piece) (rest : List Char) :
    splitOn separator (piece ++ separator :: rest) = piece :: splitOn separator rest := by
  induction piece with
  | nil => simp [splitOn]
  | cons c more ih =>
    rw [List.cons_append, splitOn, if_neg (List.ne_of_not_mem_cons h).symm,
      ih (List.not_mem_of_not_mem_cons h)]

theorem splitOn_intercalate {separator : Char} {pieces : List (List Char)} (hSome : pieces ≠ [])
    (h : ∀ piece ∈ pieces, separator ∉ piece) : splitOn separator ([separator].intercalate pieces) = pieces := by
  induction pieces with
  | nil => exact absurd rfl hSome
  | cons piece rest ih =>
    obtain ⟨hFirst, hRest⟩ := List.forall_mem_cons.mp h
    cases rest with
    | nil => simpa using splitOn_of_not_mem hFirst
    | cons next more =>
      rw [List.intercalate_cons_cons, List.append_assoc, List.singleton_append, splitOn_append hFirst,
        ih (List.cons_ne_nil _ _) hRest]

theorem split_join {pieces : List String} (hSome : pieces ≠ []) (h : ∀ piece ∈ pieces, ',' ∉ piece.toList) :
    split ',' (join "," pieces) = pieces := by
  have hPieces : ∀ piece ∈ pieces.map String.toList, ',' ∉ piece := by simpa using h
  have hText : (join "," pieces).toList = [','].intercalate (pieces.map String.toList) := String.toList_intercalate
  rw [split, hText, splitOn_intercalate (by simpa using hSome) hPieces]
  simp

theorem not_mem_of_mem_splitOn {separator : Char} {text piece : List Char} (h : piece ∈ splitOn separator text) :
    separator ∉ piece := by
  induction text generalizing piece with
  | nil =>
    obtain rfl := List.mem_singleton.mp h
    exact List.not_mem_nil
  | cons c rest ih =>
    rw [splitOn] at h
    split at h
    · rcases List.mem_cons.mp h with rfl | hRest
      · exact List.not_mem_nil
      · exact ih hRest
    · next hOther =>
      cases hPieces : splitOn separator rest with
      | nil =>
        rw [hPieces] at h
        obtain rfl := List.mem_singleton.mp h
        simpa using Ne.symm hOther
      | cons first pieces =>
        rw [hPieces] at h
        rcases List.mem_cons.mp h with rfl | hRest
        · have hFirst := ih (hPieces ▸ List.mem_cons_self : first ∈ splitOn separator rest)
          simp [hFirst, Ne.symm hOther]
        · exact ih (hPieces ▸ List.mem_cons_of_mem _ hRest)

theorem trimLeft_subset (s : List Char) : trimLeft s ⊆ s := (List.dropWhile_sublist _).subset

theorem mem_of_mem_trim {s : String} {c : Char} (h : c ∈ (trim s).toList) : c ∈ s.toList := by
  rw [trim, String.toList_ofList, List.mem_reverse] at h
  exact trimLeft_subset _ (List.mem_reverse.mp (trimLeft_subset _ h))

end Text

theorem Json.mapM_string?_eq_some {items : List Json} {texts : List String} :
    items.mapM Json.string? = some texts ↔ items = texts.map .string := by
  constructor
  · intro h
    induction items generalizing texts with
    | nil =>
      cases h
      rfl
    | cons item rest ih =>
      rw [List.mapM_cons] at h
      obtain ⟨text, hText, h⟩ := Option.bind_eq_some_iff.mp h
      obtain ⟨others, hOthers, h⟩ := Option.bind_eq_some_iff.mp h
      cases h
      cases item <;> cases hText
      rw [List.map_cons, ih hOthers]
  · rintro rfl
    induction texts with
    | nil => rfl
    | cons text rest ih =>
      rw [List.map_cons, List.mapM_cons, ih]
      rfl

end RecordCache
