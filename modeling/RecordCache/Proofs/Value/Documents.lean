import RecordCache.Proofs.Value.Codec

/-!
# Documents compared as values

`Json.sameValue` compares two documents by what they are read as. Lists and objects that are equal as
documents are equal as values; of scalars the converse holds, since `true` and `1` are one document and
two values.
-/

namespace RecordCache

namespace Json

variable {a b c : Json}

def sameValue (a b : Json) : Bool :=
  match Value.decode a, Value.decode b with
  | .ok v, .ok w => v.same w
  | _, _ => false

theorem sameValue_iff :
    a.sameValue b = true ↔ ∃ v w, Value.decode a = .ok v ∧ Value.decode b = .ok w ∧ v.same w = true := by
  rw [sameValue]
  cases Value.decode a <;> cases Value.decode b <;> simp

theorem sameValue_symm (ha : a.isDocument = true) (h : a.sameValue b = true) : b.sameValue a = true := by
  obtain ⟨v, w, hv, hw, hSame⟩ := sameValue_iff.mp h
  exact sameValue_iff.mpr ⟨w, v, hw, hv, Value.same_symm (Value.FromDocument.hasDocuments ⟨a, ha, hv⟩) hSame⟩

theorem sameValue_trans (hb : b.isDocument = true) (hab : a.sameValue b = true) (hbc : b.sameValue c = true) :
    a.sameValue c = true := by
  obtain ⟨u, v, hu, hv, hFirst⟩ := sameValue_iff.mp hab
  obtain ⟨v', w, hv', hw, hSecond⟩ := sameValue_iff.mp hbc
  obtain rfl : v = v' := Except.ok.inj (hv.symm.trans hv')
  have hDocuments := Value.FromDocument.hasDocuments ⟨b, hb, hv⟩
  exact sameValue_iff.mpr ⟨u, w, hu, hw, Value.same_trans hDocuments hFirst hSecond⟩

/-! ### Scalars -/

theorem eq_json_of_decode {s : Scalar} (ha : a.isDocument = true) (h : Value.decode a = .ok (.scalar s)) :
    a = s.json := by
  cases a with
  | object fields => cases Value.tagged_of_decodeObject h
  | array items => cases h
  | other thing parts => cases ha
  | _ =>
    cases h
    rfl

theorem alike_of_sameValue (ha : a.isDocument = true) (hb : b.isScalar = true) (h : a.sameValue b = true) :
    a.alike b = true := by
  obtain ⟨v, w, hv, hw, hSame⟩ := sameValue_iff.mp h
  obtain ⟨s, rfl, rfl⟩ : ∃ s : Scalar, w = .scalar s ∧ b = s.json := by
    cases b <;> cases hb <;> cases hw <;> exact ⟨_, rfl, rfl⟩
  cases v <;> simp only [Value.same, Bool.false_eq_true] at hSame
  next s' =>
    have hJson : s'.json.same s.json = true := Value.same_json (a := .scalar s') (b := .scalar s) hSame
    rw [eq_json_of_decode ha hv, alike, hJson, Bool.or_true]

theorem eq_string_of_alike {s : String} (h : a.alike (.string s) = true) : a = .string s := by
  cases a <;> simp_all [alike, bothNaN, isNaN, same, sameScalar, numeric?]

/-! ### Lists and objects -/

theorem same_of_alike (h : a.alike b = true) (hb : b.isNaN = false) : a.same b = true := by
  rw [alike, bothNaN, hb, Bool.and_false, Bool.false_or] at h
  exact h

theorem get?_alike {fs gs : Fields Json} (hfs : (Json.object fs).isDocument = true)
    (h : (Json.object fs).same (.object gs) = true) (name : String) :
    Assoc.get? fs name = none ∧ Assoc.get? gs name = none ∨
      ∃ i j, Assoc.get? fs name = some i ∧ Assoc.get? gs name = some j ∧ i.alike j = true := by
  obtain ⟨_, hEq, hLength, hFields⟩ := (same_object_left _ _).mp h
  cases hEq
  have hKeys := keys_perm ((isDocument_object fs).mp hfs).1 hLength hFields
  cases hField : Assoc.get? fs name with
  | none =>
    refine .inl ⟨rfl, ?_⟩
    rw [Assoc.get?_eq_none_iff] at hField ⊢
    rwa [← hKeys.mem_iff]
  | some i =>
    obtain ⟨j, hLike, hAlike⟩ := hFields _ (Assoc.mem_of_get? hField)
    exact .inr ⟨i, j, rfl, hLike, hAlike⟩

theorem getD_alike {fs gs : Fields Json} (hfs : (Json.object fs).isDocument = true)
    (h : (Json.object fs).same (.object gs) = true) (name : String) :
    ((Assoc.get? fs name).getD .null).alike ((Assoc.get? gs name).getD .null) = true := by
  rcases get?_alike hfs h name with ⟨hNone, hNone'⟩ | ⟨i, j, hi, hj, hAlike⟩
  · rw [hNone, hNone']
    exact alike_self rfl
  · rw [hi, hj]
    exact hAlike

theorem decodeObject_raw {fs gs : Fields Json} (hfs : (Json.object fs).isDocument = true)
    (h : (Json.object fs).same (.object gs) = true) (hRaw : Value.decodeObject gs = .ok (.raw (.object gs))) :
    Value.decodeObject fs = .ok (.raw (.object fs)) := by
  have hTag := getD_alike hfs h "__type"
  rw [Value.decodeObject] at hRaw ⊢
  generalize (Assoc.get? fs "__type").getD .null = tag at hTag ⊢
  generalize (Assoc.get? gs "__type").getD .null = tag' at hTag hRaw
  split at hRaw
  case h_8 hDate hBytes hFile hPointer hGeo hArray hObject =>
    split
    case h_1 => exact (hDate (eq_string_of_alike (alike_symm rfl hTag))).elim
    case h_2 => exact (hBytes (eq_string_of_alike (alike_symm rfl hTag))).elim
    case h_3 => exact (hFile (eq_string_of_alike (alike_symm rfl hTag))).elim
    case h_4 => exact (hPointer (eq_string_of_alike (alike_symm rfl hTag))).elim
    case h_5 => exact (hGeo (eq_string_of_alike (alike_symm rfl hTag))).elim
    case h_6 =>
      obtain ⟨items, rfl, -⟩ := (same_array_left _ _).mp hTag
      exact (hArray items rfl).elim
    case h_7 =>
      obtain ⟨fields, rfl, -⟩ := (same_object_left _ _).mp hTag
      exact (hObject fields rfl).elim
    case h_8 => rfl
  case h_3 =>
    obtain ⟨_, -, hEnd⟩ := Except.bind_eq_ok.mp hRaw
    cases hEnd
  case h_5 =>
    obtain ⟨_, -, hRest⟩ := Except.bind_eq_ok.mp hRaw
    obtain ⟨_, -, hEnd⟩ := Except.bind_eq_ok.mp hRest
    cases hEnd
  case h_6 => cases hRaw
  case h_7 => cases hRaw
  all_goals
    obtain ⟨_, -, hEnd⟩ := Except.map_eq_ok.mp hRaw
    cases hEnd

theorem not_isNaN_of_same_self (h : a.same a = true) : a.isNaN = false := by
  rw [Bool.eq_false_iff]
  intro hNaN
  rw [not_same_of_isNaN hNaN] at h
  cases h

/-- Objects that are equal as documents have one tag, and fields that are alike. -/
theorem decodeObject_same {fs gs : Fields Json} (hfs : (Json.object fs).isDocument = true)
    (h : (Json.object fs).same (.object gs) = true) {w : Value} (hRead : Value.decodeObject gs = .ok w)
    (hSelf : w.same w = true) : ∃ v, Value.decodeObject fs = .ok v ∧ v.same w = true := by
  have hField {name : String} {j : Json} (hj : Assoc.get? gs name = some j) :
      ∃ i, Assoc.get? fs name = some i ∧ i.alike j = true := by
    rcases get?_alike hfs h name with ⟨-, hNone⟩ | ⟨i, j', hi, hj', hAlike⟩
    · rw [hNone] at hj
      cases hj
    · cases hj'.symm.trans hj
      exact ⟨i, hi, hAlike⟩
  have hText {name text : String} (hj : Assoc.get? gs name = some (.string text)) :
      Assoc.get? fs name = some (.string text) := by
    obtain ⟨i, hi, hAlike⟩ := hField hj
    rw [hi, eq_string_of_alike hAlike]
  cases Value.tagged_of_decodeObject hRead with
  | date hTag hIso hDate =>
    refine ⟨_, ?_, hSelf⟩
    rw [Value.decodeObject, hText hTag]
    exact Except.map_eq_ok.mpr ⟨_, Except.bind_eq_ok.mpr ⟨_, Value.field_eq_ok.mpr (hText hIso),
      Value.dateOfJson_eq_ok.mpr ⟨_, rfl, hDate⟩⟩, rfl⟩
  | @bytes base64 _ hTag hBase64 hBytes =>
    refine ⟨_, ?_, hSelf⟩
    rw [Value.decodeObject, hText hTag]
    cases base64 with
    | string text =>
      exact Except.map_eq_ok.mpr ⟨_, Except.bind_eq_ok.mpr ⟨_, Value.field_eq_ok.mpr (hText hBase64),
        hBytes⟩, rfl⟩
    | _ => cases hBytes
  | file hTag hName =>
    obtain ⟨name, hName', hAlike⟩ := hField hName
    refine ⟨.file name ((Assoc.get? fs "url").getD .null), ?_, ?_⟩
    · rw [Value.decodeObject, hText hTag]
      exact Except.bind_eq_ok.mpr ⟨_, Value.field_eq_ok.mpr hName', rfl⟩
    · rw [Value.same, hAlike, getD_alike hfs h]
      rfl
  | pointer hTag hClass hId =>
    obtain ⟨className, hClass', hClassAlike⟩ := hField hClass
    obtain ⟨id, hId', hIdAlike⟩ := hField hId
    rw [Value.same, Ref.same, Bool.and_eq_true] at hSelf
    refine ⟨.pointer { className, objectId := id }, ?_, ?_⟩
    · rw [Value.decodeObject, hText hTag]
      exact Except.map_eq_ok.mpr ⟨_, Except.bind_eq_ok.mpr ⟨_, Except.bind_eq_ok.mpr ⟨_,
        Value.field_eq_ok.mpr hClass', Except.bind_eq_ok.mpr ⟨_, Value.field_eq_ok.mpr hId', rfl⟩⟩, rfl⟩, rfl⟩
    · rw [Value.same, Ref.same, same_of_alike hClassAlike (not_isNaN_of_same_self hSelf.1),
        same_of_alike hIdAlike (not_isNaN_of_same_self hSelf.2)]
      rfl
  | geoPoint hTag hLatitude hLongitude =>
    obtain ⟨latitude, hLatitude', hLatAlike⟩ := hField hLatitude
    obtain ⟨longitude, hLongitude', hLngAlike⟩ := hField hLongitude
    refine ⟨.geoPoint latitude longitude, ?_, ?_⟩
    · rw [Value.decodeObject, hText hTag]
      exact Except.bind_eq_ok.mpr ⟨_, Value.field_eq_ok.mpr hLatitude',
        Except.bind_eq_ok.mpr ⟨_, Value.field_eq_ok.mpr hLongitude', rfl⟩⟩
    · rw [Value.same, hLatAlike, hLngAlike]
      rfl
  | raw => exact ⟨_, decodeObject_raw hfs h hRead, h⟩

/-- Lists and objects that are equal as documents are equal as values, when they can be read. -/
theorem sameValue_of_alike (ha : a.isDocument = true) (hb : b.isScalar = false) (hSelf : b.sameValue b = true)
    (h : a.alike b = true) : a.sameValue b = true := by
  obtain ⟨w, w', hw, hw', hSame⟩ := sameValue_iff.mp hSelf
  obtain rfl : w = w' := Except.ok.inj (hw.symm.trans hw')
  have hSameJson : a.same b = true := by
    refine same_of_alike h ?_
    cases b <;> first | rfl | cases hb
  cases b with
  | array items =>
    obtain ⟨items', rfl, -⟩ := (same_array_right _ _).mp hSameJson
    exact sameValue_iff.mpr ⟨_, _, rfl, rfl, hSameJson⟩
  | object gs =>
    obtain ⟨fs, rfl, -⟩ := (same_object_right _ _).mp hSameJson
    obtain ⟨v, hv, hSame⟩ := decodeObject_same ha hSameJson hw hSame
    exact sameValue_iff.mpr ⟨v, w, hv, hw, hSame⟩
  | other thing parts =>
    cases a with
    | other => cases ha
    | _ => simp [same, sameScalar, numeric?] at hSameJson
  | _ => cases hb

end Json

end RecordCache
