import RecordCache.Proofs.Assoc
import RecordCache.Proofs.Except
import RecordCache.Proofs.Text.Pieces
import RecordCache.Query

/-!
# Lists of names in one text

Names without commas that are joined by commas are read back by splitting. So are the fields of an order,
each with its direction, and the fields to load: what was asked for is what the text says.
-/

namespace RecordCache

/-! ### Names that are given -/

/-- One text, or a list of texts without commas. -/
def CommaFree : Json → Prop
  | .array items => ∀ s, .string s ∈ items → ',' ∉ s.toList
  | .other .tuple items => ∀ s, .string s ∈ items → ',' ∉ s.toList
  | _ => True

theorem CommaFree.texts {names : Json} (h : CommaFree names) {texts : List String} (hTexts : names.texts? = some texts)
    {text : String} (hText : text ∈ texts) : ',' ∉ text.toList := by
  have hItems {items : List Json} (hAll : items.mapM Json.string? = some texts) : .string text ∈ items := by
    rw [Json.mapM_string?_eq_some.mp hAll]
    exact List.mem_map_of_mem hText
  match names with
  | .string s =>
    cases hTexts
    obtain ⟨piece, hPiece, rfl⟩ := List.mem_map.mp hText
    rw [String.toList_ofList]
    exact Text.not_mem_of_mem_splitOn hPiece
  | .array items => exact h text (hItems hTexts)
  | .other .tuple items => exact h text (hItems hTexts)

namespace SortOrder

variable {o : SortOrder} {e : String × Direction}

/-- A field of an order that its text can tell: no comma, and no `-` in front of a rising field. -/
structure Tellable (e : String × Direction) : Prop where
  noComma : ',' ∉ e.1.toList
  noSign : e.2 = .ascending → ¬ ['-'] <+: e.1.toList

theorem tellable_of_parseKey {text : String} (hText : ',' ∉ text.toList) (h : parseKey text = .ok e) : Tellable e := by
  have hShown : ',' ∉ (Text.trim text).toList := fun hComma => hText (Text.mem_of_mem_trim hComma)
  have hSign : ("-" : String).toList = ['-'] := rfl
  rw [parseKey] at h
  split at h
  next key direction hParts =>
    split at h
    · cases h
    · next hNot =>
      cases h
      split at hParts
      · next rest hMinus =>
        cases hParts
        rw [hMinus] at hShown
        exact ⟨by simpa using List.not_mem_of_not_mem_cons hShown, nofun⟩
      · cases hParts
        refine ⟨hShown, fun _ hPrefix => hNot ?_⟩
        rw [Bool.or_eq_true, String.startsWith_string_iff, hSign]
        exact .inr hPrefix

theorem tellable_of_argument {order : Json} (hFree : CommaFree order) (h : ofArgument order = .ok o) :
    ∀ e ∈ o.keys, Tellable e := by
  rw [ofArgument] at h
  split at h
  · cases h
    intro e he
    cases he
  · cases hTexts : order.texts? with
    | none =>
      rw [hTexts] at h
      cases h
    | some texts =>
      simp only [hTexts] at h
      obtain ⟨parsed, hParsed, h⟩ := Except.bind_eq_ok.mp h
      cases h
      intro e he
      rcases Assoc.mem_merge he with hNil | hMem
      · cases hNil
      · obtain ⟨text, hText, hKey⟩ := (Except.mem_of_mapM_eq_ok hParsed e).mp hMem
        exact tellable_of_parseKey (hFree.texts hTexts hText) hKey

end SortOrder

namespace Selection

variable {s s' : Selection}

theorem mem_foldl_addKey {texts keys : List String} {key : String} (h : key ∈ texts.foldl addKey keys) :
    key ∈ keys ∨ key ∈ texts := by
  induction texts generalizing keys with
  | nil => exact .inl h
  | cons text rest ih =>
    rcases ih h with hMem | hMem
    · rw [addKey] at hMem
      split at hMem
      · exact .inl hMem
      · rcases List.mem_append.mp hMem with hOld | hNew
        · exact .inl hOld
        · exact .inr (List.mem_singleton.mp hNew ▸ List.mem_cons_self)
    · exact .inr (List.mem_cons_of_mem _ hMem)

theorem noComma_of_add {section_ : String} {names : Json} (hFree : CommaFree names) (h : s.add section_ names = .ok s')
    (hOld : ∀ key ∈ s.keys, ',' ∉ key.toList) : ∀ key ∈ s'.keys, ',' ∉ key.toList := by
  rw [add] at h
  split at h
  · cases h
    exact hOld
  · cases hTexts : names.texts? with
    | none =>
      rw [hTexts] at h
      cases h
    | some texts =>
      simp only [hTexts] at h
      cases h
      intro key hKey
      rcases mem_foldl_addKey hKey with hMem | hMem
      · exact hOld key hMem
      · obtain ⟨text, hText, rfl⟩ := List.mem_map.mp (List.mem_filter.mp hMem).1
        exact fun hComma => hFree.texts hTexts hText (Text.mem_of_mem_trim hComma)

end Selection

end RecordCache
