import RecordCache.Json.Writer
import RecordCache.Proofs.Json.Equality

/-!
# Documents that are written

Every document has a text, and the text reads back as the document.
-/

namespace RecordCache.Json

theorem allWritable_iff (items : List Json) :
    allWritable items = true ↔ ∀ j ∈ items, j.isWritable = true := by
  induction items with
  | nil => simp [allWritable]
  | cons j rest ih => simp [allWritable, ih]

theorem fieldsWritable_iff (fields : List (String × Json)) :
    fieldsWritable fields = true ↔ ∀ e ∈ fields, e.2.isWritable = true := by
  induction fields with
  | nil => simp [fieldsWritable]
  | cons e rest ih => simp [fieldsWritable, ih]

theorem isWritable_of_isDocument (j : Json) (h : j.isDocument = true) : j.isWritable = true := by
  induction j using induction with
  | scalar j hScalar => cases j <;> first | rfl | cases hScalar
  | array items ih =>
    rw [isWritable, allWritable_iff]
    exact fun j hj => ih j hj ((isDocument_array items).mp h j hj)
  | object fields ih =>
    rw [isWritable, fieldsWritable_iff]
    exact fun e he => ih e he (((isDocument_object fields).mp h).2 e he)
  | other => cases h

theorem readBackItems_eq (items : List Json) : readBackItems items = items.map readBack := by
  induction items with
  | nil => rfl
  | cons j rest ih => rw [readBackItems, ih, List.map_cons]

theorem readBackFields_eq (fields : List (String × Json)) :
    readBackFields fields = fields.map fun e => (e.1, e.2.readBack) := by
  induction fields with
  | nil => rfl
  | cons e rest ih => rw [readBackFields, ih, List.map_cons]

theorem readBack_eq (j : Json) (h : j.isDocument = true) : j.readBack = j := by
  induction j using induction with
  | scalar j hScalar => cases j <;> first | rfl | cases hScalar
  | array items ih =>
    rw [readBack, readBackItems_eq]
    have hItems : ∀ j ∈ items, readBack j = id j := fun j hj => ih j hj ((isDocument_array items).mp h j hj)
    rw [List.map_congr_left hItems, List.map_id]
  | object fields ih =>
    have hFields : ∀ e ∈ fields, (e.1, readBack e.2) = id e := fun e he =>
      Prod.ext rfl (ih e he (((isDocument_object fields).mp h).2 e he))
    rw [readBack, readBackFields_eq, List.map_congr_left hFields, List.map_id]
  | other => cases h

end RecordCache.Json
