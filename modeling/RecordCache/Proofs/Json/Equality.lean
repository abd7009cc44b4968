import Mathlib.Data.List.Perm.Subperm
import RecordCache.Json
import RecordCache.Proofs.Assoc

/-!
# The equality of documents

`isDocument` tells what the data format can hold from what an application may hand over besides it.
On documents the equality of the program is symmetric, and it carries over from one document to any
other: what equals the one equals the other.
-/

namespace RecordCache

namespace Number

theorem exists_measure {x : Float} (h : Binary.notANumber x = false) : ∃ m, (Number.float x).measure? = some m := by
  rw [measure?, h]
  cases Binary.infinite x with
  | true => exact ⟨_, rfl⟩
  | false => exact ⟨_, rfl⟩

end Number

namespace Json

open Assoc

mutual

/-- No things, and no name that comes twice in an object. -/
def isDocument : Json → Bool
  | .array items => allDocuments items
  | .object fields => decide (keys fields).Nodup && fieldsDocuments fields
  | .other _ _ => false
  | _ => true

def allDocuments : List Json → Bool
  | [] => true
  | item :: rest => isDocument item && allDocuments rest

def fieldsDocuments : List (String × Json) → Bool
  | [] => true
  | (_, value) :: rest => isDocument value && fieldsDocuments rest

end

theorem allDocuments_iff (items : List Json) :
    allDocuments items = true ↔ ∀ j ∈ items, j.isDocument = true := by
  induction items with
  | nil => simp [allDocuments]
  | cons j rest ih => simp [allDocuments, ih]

theorem fieldsDocuments_iff (fields : List (String × Json)) :
    fieldsDocuments fields = true ↔ ∀ e ∈ fields, e.2.isDocument = true := by
  induction fields with
  | nil => simp [fieldsDocuments]
  | cons e rest ih => simp [fieldsDocuments, ih]

theorem isDocument_array (items : List Json) :
    (Json.array items).isDocument = true ↔ ∀ j ∈ items, j.isDocument = true := by
  rw [isDocument, allDocuments_iff]

theorem isDocument_object (fields : List (String × Json)) :
    (Json.object fields).isDocument = true ↔
      (keys fields).Nodup ∧ ∀ e ∈ fields, e.2.isDocument = true := by
  rw [isDocument, Bool.and_eq_true, decide_eq_true_iff, fieldsDocuments_iff]

/-- Induction over a document: its items, or the values of its fields, come before it. -/
@[elab_as_elim]
theorem induction {P : Json → Prop} (scalar : ∀ j, j.isScalar = true → P j)
    (array : ∀ items, (∀ j ∈ items, P j) → P (.array items))
    (object : ∀ fields, (∀ e ∈ fields, P e.2) → P (.object fields))
    (other : ∀ thing parts, P (.other thing parts)) (j : Json) : P j := by
  apply @Json.rec P (fun items => ∀ j ∈ items, P j) (fun fields => ∀ e ∈ fields, P e.2) (fun e => P e.2)
  case null => exact scalar .null rfl
  case bool => exact fun b => scalar (.bool b) rfl
  case number => exact fun n => scalar (.number n) rfl
  case string => exact fun s => scalar (.string s) rfl
  case array => exact array
  case object => exact object
  case other => exact fun thing parts _ => other thing parts
  all_goals simp_all

/-! ### Scalars -/

theorem sameScalar_isScalar {a b : Json} (h : sameScalar a b = true) :
    a.isScalar = true ∧ b.isScalar = true := by
  cases a <;> cases b <;> simp_all [sameScalar, numeric?, isScalar]

theorem sameScalar_comm (a b : Json) : sameScalar a b = sameScalar b a := by
  cases a <;> cases b <;> simp [sameScalar, numeric?, Number.same_comm, Bool.beq_comm]

theorem sameScalar_trans {a b c : Json} (hab : sameScalar a b = true) (hbc : sameScalar b c = true) :
    sameScalar a c = true := by
  cases a <;> cases b <;> simp_all [sameScalar, numeric?] <;>
    cases c <;> simp_all <;> exact Number.same_trans hab hbc

theorem same_of_isScalar_left {a : Json} (h : a.isScalar = true) (b : Json) :
    a.same b = sameScalar a b := by
  cases a <;> simp_all [isScalar] <;> cases b <;> simp [same]

theorem same_of_isScalar_right {b : Json} (h : b.isScalar = true) (a : Json) :
    a.same b = sameScalar a b := by
  cases b <;> simp_all [isScalar] <;> cases a <;> simp [same]

theorem not_same_of_isNaN {a : Json} (h : a.isNaN = true) (b : Json) : a.same b = false := by
  cases a <;> simp_all [isNaN]
  next n =>
    cases n <;> simp_all
    next x =>
      rw [same_of_isScalar_left rfl]
      have hNone : (Number.float x).measure? = none := by rw [Number.measure?, if_pos h]
      cases b <;> simp only [sameScalar, numeric?, Number.same, hNone]

theorem isScalar_of_isNaN {j : Json} (h : j.isNaN = true) : j.isScalar = true := by
  cases j with
  | number n => rfl
  | _ => cases h

theorem not_same_of_isNaN_right {b : Json} (h : b.isNaN = true) (a : Json) : a.same b = false := by
  have hScalar := isScalar_of_isNaN h
  rw [same_of_isScalar_right hScalar, sameScalar_comm, ← same_of_isScalar_left hScalar, not_same_of_isNaN h]

/-! ### Lists and objects -/

theorem sameItems_iff (xs ys : List Json) :
    sameItems xs ys = true ↔ List.Forall₂ (fun x y => alike x y = true) xs ys := by
  induction xs generalizing ys with
  | nil => cases ys <;> simp [sameItems]
  | cons x xs ih => cases ys <;> simp [sameItems, alike, ih]

theorem sameFields_iff (fs gs : Fields Json) :
    sameFields fs gs = true ↔ ∀ e ∈ fs, ∃ like, gs.get? e.1 = some like ∧ alike e.2 like = true := by
  induction fs with
  | nil => simp [sameFields]
  | cons e rest ih =>
    obtain ⟨key, value⟩ := e
    rw [sameFields, Bool.and_eq_true, ih, List.forall_mem_cons]
    apply and_congr_left
    intro _
    cases h : Assoc.get? gs key <;> simp [alike]

theorem same_array_right (a : Json) (ys : List Json) :
    a.same (.array ys) = true ↔ ∃ xs, a = .array xs ∧ List.Forall₂ (fun x y => alike x y = true) xs ys := by
  cases a <;> simp [same, sameScalar, numeric?, sameItems_iff]

theorem same_array_left (xs : List Json) (b : Json) :
    (Json.array xs).same b = true ↔
      ∃ ys, b = .array ys ∧ List.Forall₂ (fun x y => alike x y = true) xs ys := by
  cases b <;> simp [same, sameScalar, numeric?, sameItems_iff]

theorem same_object_right (a : Json) (gs : Fields Json) :
    a.same (.object gs) = true ↔ ∃ fs : Fields Json, a = .object fs ∧ fs.length = gs.length ∧
      ∀ e ∈ fs, ∃ like, gs.get? e.1 = some like ∧ alike e.2 like = true := by
  cases a <;> simp [same, sameScalar, numeric?, sameFields_iff]

theorem same_object_left (fs : Fields Json) (b : Json) :
    (Json.object fs).same b = true ↔ ∃ gs : Fields Json, b = .object gs ∧ fs.length = gs.length ∧
      ∀ e ∈ fs, ∃ like, gs.get? e.1 = some like ∧ alike e.2 like = true := by
  cases b <;> simp [same, sameScalar, numeric?, sameFields_iff]

/-! ### Equivalence -/

theorem alike_trans_of_same {a b c : Json} (h : a.same b = true → b.same c = true → a.same c = true)
    (hab : alike a b = true) (hbc : alike b c = true) : alike a c = true := by
  simp only [alike, bothNaN, Bool.or_eq_true, Bool.and_eq_true] at hab hbc ⊢
  rcases hab with ⟨ha, hb⟩ | hab
  · rcases hbc with ⟨-, hc⟩ | hbc
    · exact .inl ⟨ha, hc⟩
    · simp [not_same_of_isNaN hb] at hbc
  · rcases hbc with ⟨hb, -⟩ | hbc
    · simp [not_same_of_isNaN_right hb] at hab
    · exact .inr (h hab hbc)

/-- The document in the middle carries the equality from one side to the other. -/
theorem same_trans {b : Json} (hb : b.isDocument = true) :
    ∀ {a c : Json}, a.same b = true → b.same c = true → a.same c = true := by
  induction b using induction with
  | scalar b hScalar =>
    intro a c hab hbc
    rw [same_of_isScalar_right hScalar] at hab
    rw [same_of_isScalar_left hScalar] at hbc
    rw [same_of_isScalar_left (sameScalar_isScalar hab).1]
    exact sameScalar_trans hab hbc
  | array items ih =>
    intro a c hab hbc
    obtain ⟨xs, rfl, hxs⟩ := (same_array_right _ _).mp hab
    obtain ⟨zs, rfl, hzs⟩ := (same_array_left _ _).mp hbc
    have hItems := (isDocument_array items).mp hb
    refine (same_array_left _ _).mpr ⟨zs, rfl, ?_⟩
    clear hab hbc hb
    induction hxs generalizing zs with
    | nil => exact hzs
    | cons hxy _ ihTail =>
      cases hzs with
      | cons hyz hTail =>
        refine .cons ?_ (ihTail (fun j hj => ih j (List.mem_cons_of_mem _ hj)) _ hTail
          fun j hj => hItems j (List.mem_cons_of_mem _ hj))
        exact alike_trans_of_same (ih _ List.mem_cons_self (hItems _ List.mem_cons_self)) hxy hyz
  | object gs ih =>
    intro a c hab hbc
    obtain ⟨fs, rfl, hLength, hfs⟩ := (same_object_right _ _).mp hab
    obtain ⟨hs, rfl, hLength', hgs⟩ := (same_object_left _ _).mp hbc
    obtain ⟨-, hValues⟩ := (isDocument_object gs).mp hb
    refine (same_object_left _ _).mpr ⟨hs, rfl, hLength.trans hLength', ?_⟩
    intro e he
    obtain ⟨middle, hMiddle, hAlike⟩ := hfs e he
    have hMem := Assoc.mem_of_get? hMiddle
    obtain ⟨last, hLast, hAlike'⟩ := hgs _ hMem
    exact ⟨last, hLast, alike_trans_of_same (ih _ hMem (hValues _ hMem)) hAlike hAlike'⟩
  | other thing parts => cases hb

theorem alike_trans {a b c : Json} (hb : b.isDocument = true) (hab : alike a b = true)
    (hbc : alike b c = true) : alike a c = true :=
  alike_trans_of_same (same_trans hb) hab hbc

theorem alike_comm_of_same {a b : Json} (h : a.same b = true → b.same a = true) (hab : alike a b = true) :
    alike b a = true := by
  simp only [alike, bothNaN, Bool.or_eq_true, Bool.and_eq_true] at hab ⊢
  exact hab.imp And.symm h

theorem keys_perm {fs gs : Fields Json} (hfs : fs.keys.Nodup) (hLength : fs.length = gs.length)
    (h : ∀ e ∈ fs, ∃ like, gs.get? e.1 = some like ∧ alike e.2 like = true) : fs.keys.Perm gs.keys := by
  have hSubset : fs.keys ⊆ gs.keys := by
    intro key hKey
    obtain ⟨e, he, rfl⟩ := List.mem_map.mp hKey
    obtain ⟨like, hLike, -⟩ := h e he
    rw [Assoc.mem_keys_iff, hLike]
    rfl
  refine (hfs.subperm hSubset).perm_of_length_le ?_
  simp [Assoc.keys, hLength]

theorem same_symm {a : Json} (ha : a.isDocument = true) :
    ∀ {b : Json}, a.same b = true → b.same a = true := by
  induction a using induction with
  | scalar a hScalar =>
    intro b h
    rw [same_of_isScalar_left hScalar] at h
    rw [same_of_isScalar_right hScalar, sameScalar_comm, h]
  | array items ih =>
    intro b h
    obtain ⟨ys, rfl, hys⟩ := (same_array_left _ _).mp h
    have hItems := (isDocument_array items).mp ha
    refine (same_array_left _ _).mpr ⟨items, rfl, ?_⟩
    clear h ha
    induction hys with
    | nil => exact .nil
    | cons hxy _ ihTail =>
      refine .cons (alike_comm_of_same (ih _ List.mem_cons_self (hItems _ List.mem_cons_self)) hxy) ?_
      exact ihTail (fun j hj => ih j (List.mem_cons_of_mem _ hj))
        fun j hj => hItems j (List.mem_cons_of_mem _ hj)
  | object fs ih =>
    intro b h
    obtain ⟨gs, rfl, hLength, hfs⟩ := (same_object_left _ _).mp h
    obtain ⟨hKeys, hValues⟩ := (isDocument_object fs).mp ha
    have hPerm := keys_perm hKeys hLength hfs
    refine (same_object_left _ _).mpr ⟨fs, rfl, hLength.symm, ?_⟩
    intro e he
    obtain ⟨value, hValue⟩ : ∃ value, Assoc.get? fs e.1 = some value := by
      rw [← Option.isSome_iff_exists, ← Assoc.mem_keys_iff]
      exact hPerm.mem_iff.mpr (Assoc.mem_keys_of_mem he)
    have hMem := Assoc.mem_of_get? hValue
    obtain ⟨like, hLike, hAlike⟩ := hfs _ hMem
    -- names are distinct, so that the entry found under this name is the one at hand
    have hSame : like = e.2 := by
      rw [Assoc.get?_of_mem (hPerm.nodup_iff.mp hKeys) he] at hLike
      exact (Option.some.inj hLike).symm
    subst hSame
    exact ⟨value, hValue, alike_comm_of_same (ih _ hMem (hValues _ hMem)) hAlike⟩
  | other thing parts => cases ha

theorem isDocument_of_isScalar {j : Json} (h : j.isScalar = true) : j.isDocument = true := by
  cases j with
  | array items => cases h
  | object fields => cases h
  | other thing parts => cases h
  | _ => rfl

theorem isDocument_of_same {a : Json} (ha : a.isDocument = true) :
    ∀ {b : Json}, a.same b = true → b.isDocument = true := by
  have hAlike {x y : Json} (ih : x.isDocument = true → ∀ {b : Json}, x.same b = true → b.isDocument = true)
      (hx : x.isDocument = true) (h : alike x y = true) : y.isDocument = true := by
    simp only [alike, bothNaN, Bool.or_eq_true, Bool.and_eq_true] at h
    exact h.elim (fun hNaN => isDocument_of_isScalar (isScalar_of_isNaN hNaN.2)) (ih hx)
  induction a using induction with
  | scalar a hScalar =>
    intro b h
    rw [same_of_isScalar_left hScalar] at h
    exact isDocument_of_isScalar (sameScalar_isScalar h).2
  | array items ih =>
    intro b h
    obtain ⟨ys, rfl, hys⟩ := (same_array_left _ _).mp h
    have hItems := (isDocument_array items).mp ha
    rw [isDocument]
    clear h ha
    induction hys with
    | nil => rfl
    | cons hxy _ ihTail =>
      rw [allDocuments, Bool.and_eq_true]
      exact ⟨hAlike (ih _ List.mem_cons_self) (hItems _ List.mem_cons_self) hxy,
        ihTail (fun j hj => ih j (List.mem_cons_of_mem _ hj)) fun j hj => hItems j (List.mem_cons_of_mem _ hj)⟩
  | object fs ih =>
    intro b h
    obtain ⟨gs, rfl, hLength, hfs⟩ := (same_object_left _ _).mp h
    obtain ⟨hKeys, hValues⟩ := (isDocument_object fs).mp ha
    have hPerm := keys_perm hKeys hLength hfs
    have hKeys' := hPerm.nodup_iff.mp hKeys
    refine (isDocument_object gs).mpr ⟨hKeys', fun e he => ?_⟩
    obtain ⟨e', he', hName⟩ := List.mem_map.mp (hPerm.mem_iff.mpr (Assoc.mem_keys_of_mem he))
    obtain ⟨like, hLike, hValue⟩ := hfs e' he'
    -- names are distinct, so that the entry found under this name is the one at hand
    rw [hName, Assoc.get?_of_mem hKeys' he] at hLike
    cases hLike
    exact hAlike (ih e' he') (hValues e' he') hValue
  | other thing parts => cases ha

theorem same_congr {a b : Json} (ha : a.isDocument = true) (h : a.same b = true) (j : Json) :
    j.same a = j.same b := by
  rw [Bool.eq_iff_iff]
  exact ⟨fun hja => same_trans ha hja h,
    fun hjb => same_trans (isDocument_of_same ha h) hjb (same_symm ha h)⟩

theorem alike_symm {a b : Json} (ha : a.isDocument = true) (h : alike a b = true) : alike b a = true :=
  alike_comm_of_same (same_symm ha) h

theorem sameScalar_self {j : Json} (hScalar : j.isScalar = true) (h : j.isNaN = false) : sameScalar j j = true := by
  have hNumber (n : Number) (hn : (Json.number n).isNaN = false) : n.same n = true := by
    obtain ⟨m, hm⟩ : ∃ m, n.measure? = some m := by
      cases n with
      | int i => exact ⟨_, rfl⟩
      | float x => exact Number.exists_measure hn
    simp [Number.same, hm]
  cases j with
  | null => rfl
  | bool b => exact hNumber (.int (if b then 1 else 0)) rfl
  | number n => exact hNumber n h
  | string s => exact beq_self_eq_true s
  | _ => cases hScalar

/-- Only NaN differs from itself, and then it is like itself. -/
theorem same_self {j : Json} (hj : j.isDocument = true) : j.isNaN = false → j.same j = true := by
  induction j using induction with
  | scalar j hScalar =>
    intro h
    rw [same_of_isScalar_left hScalar, sameScalar_self hScalar h]
  | array items ih =>
    intro _
    refine (same_array_left _ _).mpr ⟨items, rfl, List.forall₂_same.mpr fun j hItem => ?_⟩
    have hSelf := ih j hItem ((isDocument_array items).mp hj j hItem)
    cases hNaN : j.isNaN <;> simp_all [alike, bothNaN]
  | object fields ih =>
    intro _
    obtain ⟨hKeys, hValues⟩ := (isDocument_object fields).mp hj
    refine (same_object_left _ _).mpr ⟨fields, rfl, rfl, fun e he => ⟨e.2, Assoc.get?_of_mem hKeys he, ?_⟩⟩
    have hSelf := ih e he (hValues e he)
    cases hNaN : e.2.isNaN <;> simp_all [alike, bothNaN]
  | other thing parts => cases hj

theorem alike_self {j : Json} (hj : j.isDocument = true) : j.alike j = true := by
  cases h : j.isNaN
  · rw [alike, same_self hj h, Bool.or_true]
  · rw [alike, bothNaN, h]
    rfl

theorem eq_null_of_alike {j : Json} (h : alike .null j = true) : j = .null := by
  cases j <;> simp_all [alike, bothNaN, isNaN, same, sameScalar, numeric?]

end Json

end RecordCache
