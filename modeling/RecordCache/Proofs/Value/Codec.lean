import RecordCache.Proofs.Date.Iso
import RecordCache.Proofs.Except
import RecordCache.Proofs.Json.Equality
import RecordCache.Proofs.Text.Base64
import RecordCache.Proofs.Value.Equality

/-!
# Values read back

`Value.FromDocument` tells the values that are read from documents. They are made of documents, their
wire form is a document, and it is read as the value again, unless the year of a date has fewer than four
digits.
-/

namespace RecordCache

namespace Date

theorem millis_lt_of_ofWallTime {t : WallTime} {d : Date} (h : ofWallTime t = .ok d) :
    d.millis < limit := by
  rw [ofWallTime] at h
  split at h
  · cases h
  · split at h
    · next hMillis =>
      cases h
      rw [ofMillis?] at hMillis
      split at hMillis
      · next hRange =>
        cases hMillis
        simp only [Bool.and_eq_true, decide_eq_true_eq] at hRange
        change Int.toNat _ < limit
        omega
      · cases hMillis
    · cases h

theorem millis_lt_of_date? {p : Part WallTime} {text : List Char} {d : Date} (h : p.date? text = some d) :
    d.millis < limit := by
  rw [Part.date?] at h
  split at h
  · next t more hRun =>
    cases hTime : ofWallTime t with
    | error e =>
      rw [hTime] at h
      cases h
    | ok d' =>
      rw [hTime] at h
      cases h
      exact millis_lt_of_ofWallTime hTime
  · cases h

theorem millis_lt_of_read? {text : String} {d : Date} (h : read? text = some d) : d.millis < limit := by
  rw [read?] at h
  cases hFraction : Part.withFraction.date? text.toList with
  | some d' =>
    rw [hFraction] at h
    cases h
    exact millis_lt_of_date? hFraction
  | none =>
    rw [hFraction] at h
    exact millis_lt_of_date? h

end Date

namespace Value

/-- What a document is read as. -/
def FromDocument (v : Value) : Prop := ∃ j : Json, j.isDocument = true ∧ decode j = .ok v

/-- Written with a year of four digits, if it is a date. -/
def hasFullYear : Value → Bool
  | .date d => 1000 ≤ d.dayPart.year
  | _ => true

theorem isDocument_of_get? {fields : Fields Json} (hFields : (Json.object fields).isDocument = true)
    {name : String}
    {j : Json} (h : fields.get? name = some j) : j.isDocument = true :=
  ((Json.isDocument_object fields).mp hFields).2 _ (Assoc.mem_of_get? h)

theorem field_eq_ok {fields : Fields Json} {name : String} {j : Json} :
    field fields name = .ok j ↔ fields.get? name = some j := by
  rw [field]
  cases fields.get? name <;> simp

theorem decode_scalar_json (s : Scalar) : decode s.json = .ok (.scalar s) := by
  cases s <;> rfl

/-- What an object is read as, by its tag. -/
inductive Tagged (fields : Fields Json) : Value → Prop
  | date {text : String} {d : Date} (hTag : fields.get? "__type" = some (.string "Date"))
      (hIso : fields.get? "iso" = some (.string text)) (hRead : Date.read? text = some d) : Tagged fields (.date d)
  | bytes {base64 : Json} {b : List UInt8} (hTag : fields.get? "__type" = some (.string "Bytes"))
      (hText : fields.get? "base64" = some base64) (hRead : bytesOfJson base64 = .ok b) : Tagged fields (.bytes b)
  | file {name : Json} (hTag : fields.get? "__type" = some (.string "File"))
      (hName : fields.get? "name" = some name) : Tagged fields (.file name ((fields.get? "url").getD .null))
  | pointer {ref : Ref} (hTag : fields.get? "__type" = some (.string "Pointer"))
      (hClass : fields.get? "className" = some ref.className) (hId : fields.get? "objectId" = some ref.objectId) :
      Tagged fields (.pointer { toRef := ref })
  | geoPoint {latitude longitude : Json} (hTag : fields.get? "__type" = some (.string "GeoPoint"))
      (hLatitude : fields.get? "latitude" = some latitude) (hLongitude : fields.get? "longitude" = some longitude) :
      Tagged fields (.geoPoint latitude longitude)
  | raw : Tagged fields (.raw (.object fields))

theorem dateOfJson_eq_ok {j : Json} {d : Date} :
    dateOfJson j = .ok d ↔ ∃ text, j = .string text ∧ Date.read? text = some d := by
  cases j with
  | string text =>
    rw [dateOfJson]
    cases h : Date.read? text <;> simp [h]
  | _ => simp [dateOfJson]

theorem tagged_of_decodeObject {fields : Fields Json} {v : Value} (h : decodeObject fields = .ok v) :
    Tagged fields v := by
  have hTag {tag : String} (h : (Assoc.get? fields "__type").getD .null = .string tag) :
      fields.get? "__type" = some (.string tag) := by
    cases hGet : Assoc.get? fields "__type" <;> simp_all
  rw [decodeObject] at h
  split at h
  · next hDate =>
    obtain ⟨d, hRead, rfl⟩ := Except.map_eq_ok.mp h
    obtain ⟨j, hIso, hText⟩ := Except.bind_eq_ok.mp hRead
    obtain ⟨text, rfl, hRead⟩ := dateOfJson_eq_ok.mp hText
    exact .date (hTag hDate) (field_eq_ok.mp hIso) hRead
  · next hBytes =>
    obtain ⟨b, hRead, rfl⟩ := Except.map_eq_ok.mp h
    obtain ⟨base64, hText, hRead⟩ := Except.bind_eq_ok.mp hRead
    exact .bytes (hTag hBytes) (field_eq_ok.mp hText) hRead
  · next hFile =>
    obtain ⟨name, hName, hRest⟩ := Except.bind_eq_ok.mp h
    cases hRest
    exact .file (hTag hFile) (field_eq_ok.mp hName)
  · next hPointer =>
    obtain ⟨p, hRead, rfl⟩ := Except.map_eq_ok.mp h
    obtain ⟨ref, hRef, hEnd⟩ := Except.bind_eq_ok.mp hRead
    cases hEnd
    obtain ⟨className, hClass, hRest⟩ := Except.bind_eq_ok.mp hRef
    obtain ⟨objectId, hId, hEnd⟩ := Except.bind_eq_ok.mp hRest
    cases hEnd
    exact .pointer (hTag hPointer) (field_eq_ok.mp hClass) (field_eq_ok.mp hId)
  · next hGeo =>
    obtain ⟨latitude, hLatitude, hRest⟩ := Except.bind_eq_ok.mp h
    obtain ⟨longitude, hLongitude, hEnd⟩ := Except.bind_eq_ok.mp hRest
    cases hEnd
    exact .geoPoint (hTag hGeo) (field_eq_ok.mp hLatitude) (field_eq_ok.mp hLongitude)
  · cases h
  · cases h
  · cases h
    exact .raw

/-- What a document can be read as. -/
inductive Wire : Value → Prop
  | scalar (s : Scalar) : Wire (.scalar s)
  | date {d : Date} (h : d.millis < Date.limit) : Wire (.date d)
  | bytes (b : List UInt8) : Wire (.bytes b)
  | file {name url : Json} (hName : name.isDocument = true) (hUrl : url.isDocument = true) :
    Wire (.file name url)
  | pointer {ref : Ref} (hClass : ref.className.isDocument = true) (hId : ref.objectId.isDocument = true) :
    Wire (.pointer { toRef := ref })
  | geoPoint {latitude longitude : Json} (hLatitude : latitude.isDocument = true)
      (hLongitude : longitude.isDocument = true) : Wire (.geoPoint latitude longitude)
  | raw {j : Json} (h : j.isDocument = true) (hRaw : decode j = .ok (.raw j)) : Wire (.raw j)

theorem wire_of_decodeObject {fields : Fields Json} (hFields : (Json.object fields).isDocument = true)
    {v : Value} (h : decodeObject fields = .ok v) : Wire v := by
  have hDocument {name : String} {j : Json} (hField : fields.get? name = some j) : j.isDocument = true :=
    isDocument_of_get? hFields hField
  cases tagged_of_decodeObject h with
  | date _ _ hRead => exact .date (Date.millis_lt_of_read? hRead)
  | bytes => exact .bytes _
  | file _ hName =>
    refine .file (hDocument hName) ?_
    cases hUrl : fields.get? "url" with
    | none => rfl
    | some url => exact hDocument hUrl
  | pointer _ hClass hId => exact .pointer (hDocument hClass) (hDocument hId)
  | geoPoint _ hLatitude hLongitude => exact .geoPoint (hDocument hLatitude) (hDocument hLongitude)
  | raw => exact .raw hFields h

theorem wire_of_decode {j : Json} (hj : j.isDocument = true) {v : Value} (h : decode j = .ok v) :
    Wire v := by
  cases j with
  | object fields => exact wire_of_decodeObject hj h
  | array items =>
    cases h
    exact .raw hj rfl
  | other thing parts => cases hj
  | null => cases h; exact .scalar _
  | bool b => cases h; exact .scalar _
  | number n => cases h; exact .scalar _
  | string s => cases h; exact .scalar _

theorem FromDocument.wire {v : Value} (h : v.FromDocument) : Wire v := by
  obtain ⟨j, hj, hDecode⟩ := h
  exact wire_of_decode hj hDecode

theorem FromDocument.hasDocuments {v : Value} (h : v.FromDocument) : v.hasDocuments = true := by
  cases h.wire <;> simp_all [Value.hasDocuments]

theorem FromDocument.isDocument_json {v : Value} (h : v.FromDocument) : v.json.isDocument = true := by
  cases h.wire with
  | scalar s => cases s <;> rfl
  | date => rfl
  | bytes => rfl
  | file hName hUrl =>
    rename_i name url
    cases url <;> simp_all [json, Json.isDocument, Json.fieldsDocuments, Assoc.keys]
  | pointer hClass hId => simp_all [json, Ref.json, Json.isDocument, Json.fieldsDocuments, Assoc.keys]
  | geoPoint hLatitude hLongitude => simp_all [json, Json.isDocument, Json.fieldsDocuments, Assoc.keys]
  | raw hj => exact hj

theorem dateOfJson_iso {d : Date} (hYear : 1000 ≤ d.dayPart.year) (h : d.millis < Date.limit) :
    dateOfJson (.string d.iso) = .ok d := by
  rw [dateOfJson, Date.read?_iso hYear h]

theorem bytesOfJson_encode (b : List UInt8) : bytesOfJson (.string (Text.Base64.encode b)) = .ok b := by
  have hAscii : ((Text.Base64.encode b).toList.any fun c => c.toNat ≥ 0x80) = false := by
    rw [List.any_eq_false]
    intro c hc
    rw [Text.Base64.encode, String.toList_ofList] at hc
    simpa using Text.Base64.toNat_lt_of_mem_encodeChars hc
  rw [bytesOfJson, hAscii, Text.Base64.decode?_encode]
  rfl

theorem decode_tagged_date (iso : Json) :
    decode (.object [("__type", .string "Date"), ("iso", iso)]) = Value.date <$> dateOfJson iso := rfl

theorem decode_tagged_bytes (base64 : Json) :
    decode (.object [("__type", .string "Bytes"), ("base64", base64)]) =
      Value.bytes <$> bytesOfJson base64 := rfl

theorem decode_file_json (name url : Json) : decode (Value.file name url).json = .ok (.file name url) := by
  cases url <;> rfl

theorem FromDocument.decode_json {v : Value} (h : v.FromDocument) (hYear : v.hasFullYear = true) :
    decode v.json = .ok v := by
  cases h.wire with
  | scalar s => exact decode_scalar_json s
  | date hMillis =>
    rw [json, decode_tagged_date, dateOfJson_iso (of_decide_eq_true hYear) hMillis]
    rfl
  | bytes b =>
    rw [json, decode_tagged_bytes, bytesOfJson_encode]
    rfl
  | file => exact decode_file_json _ _
  | pointer => rfl
  | geoPoint => rfl
  | raw _ hRaw => exact hRaw

end Value

end RecordCache
