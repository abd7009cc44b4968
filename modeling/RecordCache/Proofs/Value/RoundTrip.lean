import RecordCache.Proofs.Date.Written
import RecordCache.Proofs.Value.Codec

/-!
# Values there and back

What a document is read as is written so that it reads as the same value again; a document in the form in which
values are written is written as it was. Octets and moments to the millisecond come back from their wire form.
-/

namespace RecordCache

namespace Json

mutual

/-- NaN, or a list or an object with NaN somewhere in it. -/
def hasNaN : Json → Bool
  | .array items => anyNaN items
  | .object fields => fieldsNaN fields
  | j => j.isNaN

def anyNaN : List Json → Bool
  | [] => false
  | item :: rest => hasNaN item || anyNaN rest

def fieldsNaN : List (String × Json) → Bool
  | [] => false
  | (_, value) :: rest => hasNaN value || fieldsNaN rest

end

theorem isNaN_of_hasNaN {j : Json} (h : j.hasNaN = false) : j.isNaN = false := by
  cases j <;> first | rfl | exact h

theorem isNaN_of_fieldsNaN {fields : Fields Json} (h : fieldsNaN fields = false) {name : String} {j : Json}
    (hGet : fields.get? name = some j) : j.isNaN = false := by
  induction fields with
  | nil => cases hGet
  | cons e rest ih =>
    obtain ⟨hFirst, hRest⟩ := Bool.or_eq_false_iff.mp h
    rw [Assoc.get?_cons] at hGet
    split at hGet
    · cases hGet
      exact isNaN_of_hasNaN hFirst
    · exact ih hRest hGet

end Json

namespace Value

/-- In the form in which values are written: no field that does not go with the tag, dates and octets in the one
text that is written for them, and no url rather than null. -/
def IsCanonical (fields : Fields Json) : Prop :=
  match (fields.get? "__type").getD .null with
  | .string "Date" =>
    fields.keys ⊆ ["__type", "iso"] ∧ ∃ text, fields.get? "iso" = some (.string text) ∧ Date.isWritten text = true
  | .string "Bytes" =>
    fields.keys ⊆ ["__type", "base64"] ∧ ∃ b, fields.get? "base64" = some (.string (Text.Base64.encode b))
  | .string "File" => fields.keys ⊆ ["__type", "name", "url"] ∧ fields.get? "url" ≠ some .null
  | .string "Pointer" => fields.keys ⊆ ["__type", "className", "objectId"]
  | .string "GeoPoint" => fields.keys ⊆ ["__type", "latitude", "longitude"]
  | _ => True

end Value

namespace Json

/-- Lists, scalars and objects without a known tag are written as they are. -/
def IsCanonical : Json → Prop
  | .object fields => Value.IsCanonical fields
  | _ => True

/-- Of two objects with the same entries it does not matter which comes first. -/
theorem same_of_entries {written fields : Fields Json} (hFields : (Json.object fields).isDocument = true)
    (hWritten : written.keys.Nodup) (hOnly : fields.keys ⊆ written.keys)
    (hSame : ∀ e ∈ written, fields.get? e.1 = some e.2) : (Json.object written).same (.object fields) = true := by
  obtain ⟨hKeys, hValues⟩ := (isDocument_object fields).mp hFields
  have hLikes : ∀ e ∈ written, ∃ like, fields.get? e.1 = some like ∧ alike e.2 like = true := fun e he =>
    ⟨e.2, hSame e he, alike_self (hValues _ (Assoc.mem_of_get? (hSame e he)))⟩
  have hSubset : written.keys ⊆ fields.keys := by
    intro key hKey
    obtain ⟨e, he, rfl⟩ := List.mem_map.mp hKey
    rw [Assoc.mem_keys_iff, hSame e he]
    rfl
  have hPerm : written.keys.Perm fields.keys :=
    (List.perm_ext_iff_of_nodup hWritten hKeys).mpr fun key => ⟨@hSubset key, @hOnly key⟩
  have hLength : written.length = fields.length := by simpa [Assoc.keys] using hPerm.length_eq
  exact (same_object_left _ _).mpr ⟨fields, rfl, hLength, hLikes⟩

end Json

namespace Value

theorem json_file (name : Json) {url : Json} (h : url ≠ .null) :
    (Value.file name url).json = .object [("__type", .string "File"), ("name", name), ("url", url)] := by
  cases url <;> first | rfl | exact absurd rfl h

theorem same_self_scalar {j : Json} (hScalar : j.isScalar = true) (hNaN : j.hasNaN = false) :
    (Scalar.ofJson j).same (Scalar.ofJson j) = true := by
  have hSame := Json.sameScalar_self hScalar (Json.isNaN_of_hasNaN hNaN)
  cases j <;> simp_all [Scalar.ofJson, Scalar.same, Json.sameScalar, Json.numeric?, Json.isScalar]

theorem same_self_of_decode {j : Json} (hj : j.isDocument = true) (hNaN : j.hasNaN = false) {v : Value}
    (h : decode j = .ok v) : v.same v = true := by
  cases j with
  | object fields =>
    have hDocument {name : String} {j : Json} (hField : Assoc.get? fields name = some j) : j.isDocument = true :=
      isDocument_of_get? hj hField
    cases tagged_of_decodeObject h with
    | date => exact beq_self_eq_true _
    | bytes => exact beq_self_eq_true _
    | file _ hName =>
      refine Bool.and_eq_true_iff.mpr ⟨Json.alike_self (hDocument hName), ?_⟩
      cases hUrl : Assoc.get? fields "url" with
      | none => exact Json.alike_self (j := .null) rfl
      | some url => exact Json.alike_self (hDocument hUrl)
    | pointer _ hClass hId =>
      exact Bool.and_eq_true_iff.mpr ⟨Json.same_self (hDocument hClass) (Json.isNaN_of_fieldsNaN hNaN hClass),
        Json.same_self (hDocument hId) (Json.isNaN_of_fieldsNaN hNaN hId)⟩
    | geoPoint _ hLatitude hLongitude =>
      exact Bool.and_eq_true_iff.mpr ⟨Json.alike_self (hDocument hLatitude), Json.alike_self (hDocument hLongitude)⟩
    | raw => exact Json.same_self hj rfl
  | array items =>
    cases h
    exact Json.same_self hj rfl
  | other thing parts => cases hj
  | null => cases h; exact same_self_scalar rfl hNaN
  | bool b => cases h; exact same_self_scalar rfl hNaN
  | number n => cases h; exact same_self_scalar rfl hNaN
  | string s => cases h; exact same_self_scalar rfl hNaN

theorem same_json_file {fields : Fields Json} {name : Json} (hj : (Json.object fields).isDocument = true)
    (hTag : fields.get? "__type" = some (.string "File")) (hName : fields.get? "name" = some name)
    (hOnly : fields.keys ⊆ ["__type", "name", "url"]) (hNull : fields.get? "url" ≠ some .null) :
    (Value.file name ((fields.get? "url").getD .null)).json.same (.object fields) = true := by
  cases hUrl : fields.get? "url" with
  | none =>
    have hFew : fields.keys ⊆ ["__type", "name"] := by
      intro key hKey
      have hNotUrl : key ≠ "url" := by
        rintro rfl
        exact (Assoc.get?_eq_none_iff _ _).mp hUrl hKey
      simpa [hNotUrl] using hOnly hKey
    refine Json.same_of_entries hj (by simp [Assoc.keys]) hFew ?_
    simp [hTag, hName]
  | some url =>
    have hUrlNull : url ≠ .null := fun h => hNull (h ▸ hUrl)
    rw [Option.getD_some, json_file _ hUrlNull]
    refine Json.same_of_entries hj (by simp [Assoc.keys]) hOnly ?_
    simp [hTag, hName, hUrl]

theorem same_json_of_canonical {j : Json} (hj : j.isDocument = true) (hNaN : j.hasNaN = false) {v : Value}
    (h : decode j = .ok v) (hYear : v.hasFullYear = true) (hCanonical : j.IsCanonical) :
    v.json.same j = true := by
  cases j with
  | object fields =>
    change IsCanonical fields at hCanonical
    cases tagged_of_decodeObject h with
    | date hTag hIso hRead =>
      simp only [IsCanonical, hTag, Option.getD_some] at hCanonical
      obtain ⟨hOnly, text, hText, hWritten⟩ := hCanonical
      cases hIso.symm.trans hText
      have hSame := Date.iso_of_read? hWritten hRead (of_decide_eq_true hYear)
      refine Json.same_of_entries hj (by simp [Assoc.keys]) hOnly ?_
      simp [hTag, hText, hSame]
    | bytes hTag hText hRead =>
      simp only [IsCanonical, hTag, Option.getD_some] at hCanonical
      obtain ⟨hOnly, b, hEncoded⟩ := hCanonical
      cases hText.symm.trans hEncoded
      cases hRead.symm.trans (bytesOfJson_encode b)
      refine Json.same_of_entries hj (by simp [Assoc.keys]) hOnly ?_
      simp [hTag, hText]
    | file hTag hName =>
      simp only [IsCanonical, hTag, Option.getD_some] at hCanonical
      obtain ⟨hOnly, hNull⟩ := hCanonical
      exact same_json_file hj hTag hName hOnly hNull
    | pointer hTag hClass hId =>
      simp only [IsCanonical, hTag, Option.getD_some] at hCanonical
      refine Json.same_of_entries hj (by simp [Assoc.keys]) hCanonical ?_
      simp [hTag, hClass, hId]
    | geoPoint hTag hLatitude hLongitude =>
      simp only [IsCanonical, hTag, Option.getD_some] at hCanonical
      refine Json.same_of_entries hj (by simp [Assoc.keys]) hCanonical ?_
      simp [hTag, hLatitude, hLongitude]
    | raw => exact Json.same_self hj rfl
  | array items =>
    cases h
    exact Json.same_self hj rfl
  | other thing parts => cases hj
  | null => cases h; exact Json.same_self hj (Json.isNaN_of_hasNaN hNaN)
  | bool b => cases h; exact Json.same_self hj (Json.isNaN_of_hasNaN hNaN)
  | number n => cases h; exact Json.same_self hj (Json.isNaN_of_hasNaN hNaN)
  | string s => cases h; exact Json.same_self hj (Json.isNaN_of_hasNaN hNaN)

/-- What a document without NaN is read as is read back from its wire form, and equals itself; what is in the form
of values is written as it was. All octets come back, and so does every moment in UTC, to the millisecond. -/
theorem roundTrip :
    (∀ (j : Json) (v : Value), j.isDocument = true → j.hasNaN = false → decode j = .ok v → v.hasFullYear = true →
      decode v.json = .ok v ∧ v.same v = true ∧ (j.IsCanonical → v.json.same j = true)) ∧
    (∀ b, decode (Value.bytes b).json = .ok (.bytes b)) ∧
    ∀ t : WallTime, Date.isWallTime t = true → t.offset.getD 0 = 0 → 1000 ≤ t.date.year →
      ∃ d, Date.ofWallTime t = .ok d ∧ Date.read? d.iso = some d ∧ d.wallTime = Date.cut t := by
  refine ⟨fun j v hj hNaN hDecode hYear => ⟨?_, same_self_of_decode hj hNaN hDecode, ?_⟩, fun b => ?_,
    fun t hTime hOffset hYear => ?_⟩
  · exact FromDocument.decode_json ⟨j, hj, hDecode⟩ hYear
  · exact same_json_of_canonical hj hNaN hDecode hYear
  · rw [json, decode_tagged_bytes, bytesOfJson_encode]
    rfl
  · obtain ⟨d, hDate, hRange, hWall⟩ := Date.ofWallTime_utc hTime hOffset
    have hDay : d.dayPart = t.date := congrArg WallTime.date hWall
    exact ⟨d, hDate, Date.read?_iso (hDay ▸ hYear) hRange, hWall⟩

def leapDay : Json := .object [("__type", .string "Date"), ("iso", .string "2016-02-29T23:59:59.999Z")]

/-- Half past noon and some microseconds. -/
def afterNoon : WallTime := ⟨⟨2016, 2, 29⟩, 12, 30, 15, 123456, none⟩

theorem roundTrip_leapDay :
    (∃ v, decode leapDay = .ok v ∧ leapDay.isDocument = true ∧ leapDay.hasNaN = false ∧
      v.hasFullYear = true ∧ leapDay.IsCanonical ∧ decode v.json = .ok v ∧ v.same v = true ∧
      v.json.same leapDay = true) ∧
    Date.isWallTime afterNoon = true ∧ ∃ d, Date.ofWallTime afterNoon = .ok d ∧ Date.read? d.iso = some d ∧
      d.wallTime = ⟨⟨2016, 2, 29⟩, 12, 30, 15, 123000, some 0⟩ := by
  have hDecode : decode leapDay = .ok (.date ⟨63592387199999⟩) := by rfl
  have hCanonical : leapDay.IsCanonical := by
    refine ⟨by simp [Assoc.keys], _, rfl, ?_⟩
    decide
  have hYear : hasFullYear (.date ⟨63592387199999⟩) = true := by decide
  obtain ⟨hDocuments, -, hTimes⟩ := roundTrip
  obtain ⟨hRead, hSelf, hWritten⟩ := hDocuments leapDay _ (by decide) (by decide) hDecode hYear
  exact ⟨⟨_, hDecode, by decide, by decide, hYear, hCanonical, hRead, hSelf, hWritten hCanonical⟩, by decide,
    hTimes afterNoon (by decide) rfl (by decide)⟩

end Value

end RecordCache
