import Mathlib.Data.List.Induction
import RecordCache.Operation.Batch
import RecordCache.Proofs.Assoc
import RecordCache.Proofs.Except
import RecordCache.Proofs.Keyed

/-!
# What a body asks for, and what is applied

`exec` carries out the body of a request on a record, as the wire form of each entry says. A body has one
entry for each field, the one of the last operation on it, while `Batch.apply` makes every change in
turn: the two end alike where the last operation on a field does alone what all of them do.
-/

namespace RecordCache

/-- What becomes of one field. -/
inductive Change
  | put (content : Json)
  | append (objects : List Json)
  | join (objects : List Json)
  | takeOut (objects : List Json)
  | increase (amount : Number)
  | drop
  | keep

namespace Change

def items (field : Option Json) : List Json := (field.bind Json.array?).getD []

def number : Option Json → Number
  | some (.number n) => n
  | _ => .int 0

/-- The field afterwards. -/
def act (before : Option Json) : Change → Except DataFault (Option Json)
  | .put content => .ok (some content)
  | .append objects => .ok (some (.array (items before ++ objects)))
  | .join objects => .ok (some (.array (objects.foldl Operation.appendUnique (items before))))
  | .takeOut objects => .ok (some (.array ((items before).filter fun item => !item.among objects)))
  | .increase amount =>
    match (number before).add? amount with
    | some sum => .ok (some (.number sum))
    | none => .error .tooLarge
  | .drop => .ok none
  | .keep => .ok before

/-- An object with an instruction says how the field changes; anything else is its new content. -/
def ofWire (content : Json) : Change :=
  match content.get? "__op" with
  | some (.string "Add") => .append (items (content.get? "objects"))
  | some (.string "AddUnique") => .join (items (content.get? "objects"))
  | some (.string "Remove") => .takeOut (items (content.get? "objects"))
  | some (.string "Increment") => .increase (number (content.get? "amount"))
  | some (.string "Delete") => .drop
  | some (.string "AddRelation") => .keep
  | some (.string "RemoveRelation") => .keep
  | _ => .put content

theorem ofWire_of_plain {content : Json} (h : ∀ name, content.get? "__op" ≠ some (.string name)) :
    ofWire content = .put content := by
  unfold ofWire
  split <;> first | rfl | exact absurd ‹_› (h _)

theorem fault_of_act {c : Change} {before : Option Json} {fault : DataFault}
    (h : c.act before = .error fault) : fault = .tooLarge := by
  cases c <;> simp only [act, reduceCtorEq] at h
  case increase =>
    split at h <;> cases h
    rfl

end Change

/-! ### Changes of many fields -/

/-- Changes one field of a record. -/
def changeField (raw : Keyed Json) (key : String) (act : Option Json → Except DataFault (Option Json)) :
    Except DataFault (Keyed Json) :=
  match act (Assoc.get? raw (.string key)) with
  | .ok (some content) => .ok (Operation.setField raw key content)
  | .ok none => .ok (Assoc.erase raw (.string key))
  | .error fault => .error fault

/-- Carries out the body of a request. -/
def exec (body : Fields Json) (raw : Keyed Json) : Except DataFault (Keyed Json) :=
  body.foldlM (fun raw entry => changeField raw entry.1 (Change.ofWire entry.2).act) raw

/-- The same fields in the end, or the same failure. -/
def SameEnd : Except DataFault (Keyed Json) → Except DataFault (Keyed Json) → Prop
  | .ok left, .ok right => ∀ key, Assoc.get? left key = Assoc.get? right key
  | .error fault, .error fault' => fault = fault'
  | _, _ => False

theorem changeField_eq_error {raw : Keyed Json} {key : String}
    {act : Option Json → Except DataFault (Option Json)} {fault : DataFault}
    (h : changeField raw key act = .error fault) : act (Assoc.get? raw (.string key)) = .error fault := by
  unfold changeField at h
  split at h <;> cases h
  assumption

theorem get?_changeField {raw after : Keyed Json} {key : String}
    {act : Option Json → Except DataFault (Option Json)} (h : changeField raw key act = .ok after) :
    act (Assoc.get? raw (.string key)) = .ok (Assoc.get? after (.string key)) ∧
      ∀ other, Scalar.string key ≠ other → Assoc.get? after other = Assoc.get? raw other := by
  unfold changeField at h
  split at h <;> cases h
  · next hAct =>
    refine ⟨by simp [hAct, Operation.setField], fun other hOther => ?_⟩
    simp [Operation.setField, hOther]
  · next hAct =>
    refine ⟨by simp [hAct, Assoc.get?_erase], fun other hOther => ?_⟩
    simp [Assoc.get?_erase, hOther]

section Steps

variable {α : Type} (key : α → String) (act : α → Option Json → Except DataFault (Option Json))

/-- Changes fields one after the other. -/
def changeAll (steps : List α) (raw : Keyed Json) : Except DataFault (Keyed Json) :=
  steps.foldlM (fun raw a => changeField raw (key a) (act a)) raw

/-- What the changes of one field make of it. -/
def changed (steps : List α) (name : Scalar) (before : Option Json) : Except DataFault (Option Json) :=
  (steps.filter fun a => Scalar.string (key a) = name).foldlM (fun field a => act a field) before

variable {key act}

/-- Changes of different fields do not meet: each field ends as its own changes leave it. -/
theorem changed_of_changeAll {steps : List α} {raw after : Keyed Json}
    (h : changeAll key act steps raw = .ok after) (name : Scalar) :
    changed key act steps name (Assoc.get? raw name) = .ok (Assoc.get? after name) := by
  induction steps generalizing raw with
  | nil =>
    cases h
    rfl
  | cons a rest ih =>
    obtain ⟨next, hNext, hRest⟩ := Except.bind_eq_ok.mp ((List.foldlM_cons ..).symm.trans h)
    obtain ⟨hAct, hOthers⟩ := get?_changeField hNext
    have hTail := ih hRest
    by_cases hName : Scalar.string (key a) = name
    · subst hName
      rw [changed, List.filter_cons_of_pos (by simp), List.foldlM_cons, hAct]
      exact hTail
    · rw [changed, List.filter_cons_of_neg (by simpa using hName), ← hOthers _ hName]
      exact hTail

/-- A name that is no text is the name of no change. -/
theorem get?_of_changeAll {steps : List α} {raw after : Keyed Json}
    (h : changeAll key act steps raw = .ok after) {name : Scalar} (hName : ∀ text, name ≠ .string text) :
    Assoc.get? after name = Assoc.get? raw name := by
  have hField := changed_of_changeAll h name
  rw [changed, List.filter_eq_nil_iff.mpr fun a _ => by simpa using (hName (key a)).symm] at hField
  exact (Except.ok.inj hField).symm

theorem fault_of_changeAll {steps : List α} {raw : Keyed Json} {fault : DataFault}
    (h : changeAll key act steps raw = .error fault) :
    ∃ name : String, changed key act steps (.string name) (Assoc.get? raw (.string name)) = .error fault := by
  induction steps generalizing raw with
  | nil => cases h
  | cons a rest ih =>
    cases hNext : changeField raw (key a) (act a) with
    | error fault' =>
      have hSame : fault' = fault := by
        rw [changeAll, List.foldlM_cons, hNext] at h
        cases h
        rfl
      subst hSame
      refine ⟨key a, ?_⟩
      rw [changed, List.filter_cons_of_pos (by simp), List.foldlM_cons, changeField_eq_error hNext]
      rfl
    | ok next =>
      obtain ⟨hAct, hOthers⟩ := get?_changeField hNext
      have hRest : changeAll key act rest next = .error fault := by
        rw [changeAll, List.foldlM_cons, hNext] at h
        exact h
      obtain ⟨name, hName⟩ := ih hRest
      refine ⟨name, ?_⟩
      by_cases hKey : key a = name
      · subst hKey
        rw [changed, List.filter_cons_of_pos (by simp), List.foldlM_cons, hAct]
        exact hName
      · rw [changed, List.filter_cons_of_neg (by simpa using hKey), ← hOthers _ (by simpa using hKey)]
        exact hName

/-- Changes of one field only: all of them count. -/
theorem get?_changeAll {steps : List α} {name : String} (h : ∀ a ∈ steps, key a = name)
    (raw : Keyed Json) :
    (fun after => Assoc.get? after (.string name)) <$> changeAll key act steps raw =
      steps.foldlM (fun field a => act a field) (Assoc.get? raw (.string name)) := by
  have hAll : (steps.filter fun a => Scalar.string (key a) = .string name) = steps :=
    List.filter_eq_self.mpr fun a ha => by simp [h a ha]
  cases hEnd : changeAll key act steps raw with
  | ok after =>
    have hField := changed_of_changeAll hEnd (.string name)
    rw [changed, hAll] at hField
    exact hField.symm
  | error fault =>
    obtain ⟨other, hField⟩ := fault_of_changeAll hEnd
    obtain rfl : other = name := by
      by_contra hOther
      have hNone : (steps.filter fun a => Scalar.string (key a) = .string other) = [] :=
        List.filter_eq_nil_iff.mpr fun a ha => by simp [h a ha, Ne.symm hOther]
      rw [changed, hNone] at hField
      cases hField
    rw [changed, hAll] at hField
    exact hField.symm

end Steps

/-! ### Operations -/

/-- An entry of permissions is an object: no instruction, whatever its principal is called. -/
theorem Acl.plain {acl : Acl} {content : Json} (h : acl.wire = .ok content) (name : String) :
    content.get? "__op" ≠ some (.string name) := by
  intro hName
  unfold Acl.wire at h
  split at h <;> cases h
  obtain ⟨e, he, hContent⟩ := Keyed.content_of_get? hName
  obtain ⟨e', he', hSame⟩ := Keyed.mem_ofList he
  obtain ⟨r, -, rfl⟩ := List.mem_map.mp he'
  rw [hContent] at hSame
  cases hSame

namespace Operation

/-- A value that is set is none of the instructions. -/
def IsPlain : Operation → Prop
  | .set _ value => value.json.get? "__op" = none
  | _ => True

/-- What the operation does to its field. -/
def change : Operation → Except DataFault Change
  | .set _ value => .ok (.put value.json)
  | .add _ objects => .ok (.append objects)
  | .addUnique _ objects => .ok (.join objects)
  | .remove _ objects => .ok (.takeOut objects)
  | .increment _ amount => .ok (.increase amount)
  | .addRelation _ _ => .ok .keep
  | .removeRelation _ _ => .ok .keep
  | .setSecurity owner => .put <$> (Acl.ownerOnlyWrite owner).wire
  | .clearSecurity => .put <$> Acl.everyone.wire
  | .delete _ => .ok .drop

def act (o : Operation) (before : Option Json) : Except DataFault (Option Json) := do
  (← o.change).act before

theorem change_eq (o : Operation) (h : o.IsPlain) : o.change = Change.ofWire <$> o.wire := by
  have hSecurity (acl : Acl) : Change.put <$> acl.wire = Change.ofWire <$> acl.wire := by
    cases hWire : acl.wire with
    | error fault => rfl
    | ok content => exact congrArg Except.ok (Change.ofWire_of_plain (Acl.plain hWire)).symm
  cases o
  case set key value =>
    refine congrArg Except.ok (Change.ofWire_of_plain fun name hName => ?_).symm
    rw [show value.json.get? "__op" = none from h] at hName
    cases hName
  case setSecurity owner => exact hSecurity _
  case clearSecurity => exact hSecurity _
  all_goals rfl

theorem setField_of_get? {raw : Keyed Json} {key : String} {content : Json}
    (h : Assoc.get? raw (.string key) = some content) : setField raw key content = raw := by
  induction raw with
  | nil => cases h
  | cons first rest ih =>
    obtain ⟨name, old⟩ := first
    rw [Assoc.get?_cons] at h
    by_cases hName : name = .string key
    · subst hName
      obtain rfl : old = content := by simpa using h
      simp [setField, Assoc.set]
    · rw [if_neg hName] at h
      simpa [setField, Assoc.set, hName] using ih h

theorem keep_eq (raw : Keyed Json) (key : String) :
    changeField raw key (fun before => .ok before) = .ok raw := by
  cases hField : Assoc.get? raw (.string key) with
  | none => simp [changeField, hField, Assoc.erase_of_get?_eq_none hField]
  | some content => simp [changeField, hField, setField_of_get? hField]

theorem apply_eq (raw : Keyed Json) (o : Operation) : o.apply raw = changeField raw o.key o.act := by
  have hSecurity (wire : Except DataFault Json) : (setField raw "ACL" <$> wire) =
      changeField raw "ACL" (fun before => Change.put <$> wire >>= fun c => c.act before) := by
    cases wire <;> rfl
  cases o
  case increment key amount =>
    have hNumber : currentNumber raw key = Change.number (Assoc.get? raw (.string key)) := rfl
    change apply raw _ = changeField raw key (Change.increase amount).act
    rw [apply, changeField, Change.act, hNumber]
    cases (Change.number (Assoc.get? raw (.string key))).add? amount <;> rfl
  case addRelation key member => exact (keep_eq raw key).symm
  case removeRelation key member => exact (keep_eq raw key).symm
  case setSecurity owner => exact hSecurity (Acl.ownerOnlyWrite owner).wire
  case clearSecurity => exact hSecurity Acl.everyone.wire
  all_goals rfl

end Operation

/-! ### The body -/

namespace Batch

/-- The operations on one field. -/
def on (b : Batch) (key : String) : Batch :=
  { b with operations := b.operations.filter fun o => o.key = key }

/-- Nothing but the last operation. -/
def last (b : Batch) : Batch := { b with operations := b.operations.getLast?.toList }

/-- What the operations make of a field. -/
def leaves (b : Batch) (key : String) (raw : Keyed Json) : Except DataFault (Option Json) :=
  (fun after => Assoc.get? after (.string key)) <$> b.apply raw

variable {b : Batch} {body : Fields Json} {raw : Keyed Json} {key : String}

theorem apply_eq (b : Batch) (raw : Keyed Json) :
    b.apply raw = changeAll Operation.key Operation.act b.operations raw := by
  have hStep : Operation.apply = fun raw o => changeField raw o.key o.act := by
    funext raw o
    exact o.apply_eq raw
  rw [apply, hStep]
  rfl

theorem get?_apply_of_apart {after : Keyed Json} (h : b.apply raw = .ok after)
    (hApart : ∀ o ∈ b.operations, o.key ≠ key) :
    Assoc.get? after (.string key) = Assoc.get? raw (.string key) := by
  rw [apply_eq] at h
  have hField := changed_of_changeAll h (.string key)
  have hNone : (b.operations.filter fun o => Scalar.string o.key = .string key) = [] :=
    List.filter_eq_nil_iff.mpr fun o ho => by simpa using hApart o ho
  rw [changed, hNone] at hField
  exact (Except.ok.inj hField).symm

theorem key_of_mem_on {o : Operation} (ho : o ∈ (b.on key).operations) : o.key = key := by
  simpa using (List.mem_filter.mp ho).2

theorem leaves_on (b : Batch) (key : String) (raw : Keyed Json) :
    (b.on key).leaves key raw =
      changed Operation.key Operation.act b.operations (.string key) (Assoc.get? raw (.string key)) := by
  rw [leaves, apply_eq, get?_changeAll fun o => key_of_mem_on, changed]
  simp [on]

theorem leaves_last (b : Batch) (key : String) (raw : Keyed Json) :
    (b.on key).last.leaves key raw =
      match (b.on key).operations.getLast? with
      | some o => o.act (Assoc.get? raw (.string key))
      | none => .ok (Assoc.get? raw (.string key)) := by
  have hKey : ∀ o ∈ (b.on key).last.operations, o.key = key := by
    intro o ho
    exact key_of_mem_on (List.mem_of_getLast? (by simpa [last] using ho))
  rw [leaves, apply_eq, get?_changeAll hKey, last]
  cases (b.on key).operations.getLast? with
  | none => rfl
  | some o => simp

/-- A body names each field once, with what the last operation on it says. -/
theorem get?_compose (h : b.compose = .ok body) :
    body.keys.Nodup ∧ ∀ key, match (b.on key).operations.getLast? with
      | some o => ∃ content, o.wire = .ok content ∧ Assoc.get? body key = some content
      | none => Assoc.get? body key = none := by
  obtain ⟨className, objectId, operations⟩ := b
  induction operations using List.reverseRecOn generalizing body with
  | nil =>
    cases h
    exact ⟨List.nodup_nil, fun _ => rfl⟩
  | append_singleton rest o ih =>
    rw [compose, List.foldlM_append] at h
    obtain ⟨before, hBefore, hLast⟩ := Except.bind_eq_ok.mp h
    obtain ⟨after, hAfter, hBody⟩ := Except.bind_eq_ok.mp hLast
    cases hBody
    obtain ⟨content, hWire, hSet⟩ := Except.bind_eq_ok.mp hAfter
    cases hSet
    obtain ⟨hNodup, hFields⟩ := ih hBefore
    refine ⟨Assoc.nodup_keys_set hNodup _ _, fun key => ?_⟩
    by_cases hKey : o.key = key
    · rw [on, List.filter_append, List.filter_singleton, decide_eq_true hKey]
      simp [hWire, hKey]
    · rw [on, List.filter_append, List.filter_singleton, decide_eq_false hKey, cond_false, List.append_nil,
        Assoc.get?_set, if_neg hKey]
      exact hFields key

theorem filter_key (h : body.keys.Nodup) (key : String) :
    (body.filter fun entry => entry.1 = key) =
      (Assoc.get? body key).toList.map fun content => (key, content) := by
  induction body with
  | nil => rfl
  | cons entry rest ih =>
    obtain ⟨name, content⟩ := entry
    obtain ⟨hFirst, hRest⟩ := List.nodup_cons.mp h
    by_cases hKey : name = key
    · subst hKey
      have hNone : Assoc.get? rest name = none := (Assoc.get?_eq_none_iff rest name).mpr hFirst
      rw [List.filter_cons_of_pos (by simp), ih hRest, hNone]
      simp [Assoc.get?_cons]
    · rw [List.filter_cons_of_neg (by simpa using hKey), ih hRest, Assoc.get?_cons, if_neg hKey]

theorem wire_of_compose (h : b.compose = .ok body) {o : Operation} (ho : o ∈ b.operations) :
    ∃ content, o.wire = .ok content := by
  obtain ⟨before, after, hStep⟩ := Except.foldlM_eq_ok h ho
  obtain ⟨content, hWire, -⟩ := Except.bind_eq_ok.mp hStep
  exact ⟨content, hWire⟩

/-- Without a body nothing is applied either. -/
theorem apply_of_compose_error {fault : DataFault} (hPlain : ∀ o ∈ b.operations, o.IsPlain)
    (h : b.compose = .error fault) (raw : Keyed Json) : ∃ fault', b.apply raw = .error fault' := by
  obtain ⟨o, ho, before, hStep⟩ := Except.foldlM_eq_error h
  have hWire : o.wire = .error fault := by
    cases hWire : o.wire <;> rw [Operation.compose, hWire] at hStep <;> cases hStep
    rfl
  cases hApply : b.apply raw with
  | error fault' => exact ⟨fault', rfl⟩
  | ok after =>
    obtain ⟨start, next, hStep⟩ := Except.foldlM_eq_ok hApply ho
    rw [Operation.apply_eq] at hStep
    obtain ⟨hAct, -⟩ := get?_changeField hStep
    rw [Operation.act, Operation.change_eq o (hPlain o ho), hWire] at hAct
    cases hAct

theorem fault_of_apply (hPlain : ∀ o ∈ b.operations, o.IsPlain) (hBody : b.compose = .ok body)
    {fault : DataFault} (h : b.apply raw = .error fault) : fault = .tooLarge := by
  obtain ⟨o, ho, before, hStep⟩ := Except.foldlM_eq_error h
  obtain ⟨content, hWire⟩ := wire_of_compose hBody ho
  rw [Operation.apply_eq] at hStep
  have hAct := changeField_eq_error hStep
  rw [Operation.act, Operation.change_eq o (hPlain o ho), hWire] at hAct
  exact Change.fault_of_act hAct

theorem fault_of_exec {fault : DataFault} (h : exec body raw = .error fault) : fault = .tooLarge := by
  obtain ⟨entry, -, before, hStep⟩ := Except.foldlM_eq_error h
  exact Change.fault_of_act (changeField_eq_error hStep)

theorem changed_body (hPlain : ∀ o ∈ b.operations, o.IsPlain) (hBody : b.compose = .ok body) (key : String)
    (raw : Keyed Json) :
    changed Prod.fst (fun entry => (Change.ofWire entry.2).act) body (.string key)
      (Assoc.get? raw (.string key)) = (b.on key).last.leaves key raw := by
  obtain ⟨hNodup, hFields⟩ := get?_compose hBody
  have hField := hFields key
  have hFilter : (body.filter fun entry => Scalar.string entry.1 = .string key) =
      (Assoc.get? body key).toList.map fun content => (key, content) := by
    simpa using filter_key hNodup key
  rw [leaves_last, changed, hFilter]
  cases hLast : (b.on key).operations.getLast? with
  | none =>
    rw [hLast] at hField
    rw [hField]
    rfl
  | some o =>
    rw [hLast] at hField
    obtain ⟨content, hWire, hContent⟩ := hField
    have ho : o ∈ b.operations := (List.mem_filter.mp (List.mem_of_getLast? hLast)).1
    change _ = o.act _
    rw [hContent, Operation.act, Operation.change_eq o (hPlain o ho), hWire]
    exact bind_pure _

theorem leaves_of_exec {after : Keyed Json} (hPlain : ∀ o ∈ b.operations, o.IsPlain)
    (hBody : b.compose = .ok body) (h : exec body raw = .ok after) (key : String) :
    (b.on key).last.leaves key raw = .ok (Assoc.get? after (.string key)) := by
  rw [← changed_body hPlain hBody]
  exact changed_of_changeAll h _

theorem leaves_of_apply {after : Keyed Json} (h : b.apply raw = .ok after) (key : String) :
    (b.on key).leaves key raw = .ok (Assoc.get? after (.string key)) := by
  rw [leaves_on]
  exact changed_of_changeAll ((apply_eq b raw).symm.trans h) _

theorem exists_of_exec_error (hPlain : ∀ o ∈ b.operations, o.IsPlain) (hBody : b.compose = .ok body)
    {fault : DataFault} (h : exec body raw = .error fault) :
    ∃ key, (b.on key).last.leaves key raw = .error .tooLarge := by
  obtain ⟨key, hKey⟩ := fault_of_changeAll h
  obtain rfl := fault_of_exec h
  exact ⟨key, (changed_body hPlain hBody key raw).symm.trans hKey⟩

theorem exists_of_apply_error (hPlain : ∀ o ∈ b.operations, o.IsPlain) (hBody : b.compose = .ok body)
    {fault : DataFault} (h : b.apply raw = .error fault) :
    ∃ key, (b.on key).leaves key raw = .error .tooLarge := by
  obtain ⟨key, hKey⟩ := fault_of_changeAll ((apply_eq b raw).symm.trans h)
  obtain rfl := fault_of_apply hPlain hBody h
  exact ⟨key, (leaves_on b key raw).trans hKey⟩

theorem sameEnd_of_leaves (hPlain : ∀ o ∈ b.operations, o.IsPlain) (hBody : b.compose = .ok body)
    (h : ∀ key, (b.on key).last.leaves key raw = (b.on key).leaves key raw) :
    SameEnd (exec body raw) (b.apply raw) := by
  cases hExec : exec body raw with
  | ok sent =>
    cases hApply : b.apply raw with
    | ok cached =>
      intro name
      by_cases hName : ∃ key, name = .string key
      · obtain ⟨key, rfl⟩ := hName
        have hKey := h key
        rw [leaves_of_exec hPlain hBody hExec, leaves_of_apply hApply] at hKey
        exact Except.ok.inj hKey
      · have hOther : ∀ key, name ≠ .string key := fun key hKey => hName ⟨key, hKey⟩
        rw [get?_of_changeAll hExec hOther, get?_of_changeAll ((apply_eq b raw).symm.trans hApply) hOther]
    | error fault =>
      obtain ⟨key, hKey⟩ := exists_of_apply_error hPlain hBody hApply
      rw [← h key, leaves_of_exec hPlain hBody hExec] at hKey
      cases hKey
  | error fault =>
    cases hApply : b.apply raw with
    | ok cached =>
      obtain ⟨key, hKey⟩ := exists_of_exec_error hPlain hBody hExec
      rw [h key, leaves_of_apply hApply] at hKey
      cases hKey
    | error fault' => exact (fault_of_exec hExec).trans (fault_of_apply hPlain hBody hApply).symm

/-! ### Fields that are set -/

section Sets

variable {values : Fields Value} (h : b.operations = values.map fun e => .set e.1 e.2)

include h

theorem compose_sets : b.compose = .ok (Assoc.ofList (values.map fun e => (e.1, e.2.json))) := by
  suffices hAll : ∀ (values : Fields Value) (body : Fields Json),
      (values.map fun e => Operation.set e.1 e.2).foldlM (fun body o => o.compose body) body =
        .ok (Assoc.merge body (values.map fun e => (e.1, e.2.json))) by
    rw [compose, h]
    exact hAll values []
  intro values
  induction values with
  | nil => exact fun body => rfl
  | cons e rest ih => exact fun body => ih _

theorem apply_sets (raw : Keyed Json) :
    b.apply raw = .ok (Assoc.merge raw (Keyed.ofFields (values.map fun e => (e.1, e.2.json)))) := by
  suffices hAll : ∀ (values : Fields Value) (raw : Keyed Json),
      (values.map fun e => Operation.set e.1 e.2).foldlM Operation.apply raw =
        .ok (Assoc.merge raw (Keyed.ofFields (values.map fun e => (e.1, e.2.json)))) by
    rw [apply, h]
    exact hAll values raw
  intro values
  induction values with
  | nil => exact fun raw => rfl
  | cons e rest ih => exact fun raw => ih _

end Sets

/-! ### What is sent, and what is applied -/

/-- The body is carried out as the operations are applied exactly where the last operation on each field
does alone what all of them do, or where both ways come to a number that is too large. -/
theorem exec_compose_iff (hPlain : ∀ o ∈ b.operations, o.IsPlain) (raw : Keyed Json) :
    (∀ fault, b.compose = .error fault → ∃ fault', b.apply raw = .error fault') ∧
      ∀ body, b.compose = .ok body →
        (SameEnd (exec body raw) (b.apply raw) ↔
          (∀ key, (b.on key).last.leaves key raw = (b.on key).leaves key raw) ∨
            ((∃ key, (b.on key).last.leaves key raw = .error .tooLarge) ∧
              ∃ key, (b.on key).leaves key raw = .error .tooLarge)) := by
  refine ⟨fun fault h => apply_of_compose_error hPlain h raw, fun body hBody => ⟨fun h => ?_, ?_⟩⟩
  · cases hExec : exec body raw with
    | ok sent =>
      cases hApply : b.apply raw with
      | ok cached =>
        rw [hExec, hApply] at h
        refine .inl fun key => ?_
        rw [leaves_of_exec hPlain hBody hExec, leaves_of_apply hApply, h]
      | error fault =>
        rw [hExec, hApply] at h
        cases h
    | error fault =>
      cases hApply : b.apply raw with
      | ok cached =>
        rw [hExec, hApply] at h
        cases h
      | error fault' =>
        exact .inr ⟨exists_of_exec_error hPlain hBody hExec, exists_of_apply_error hPlain hBody hApply⟩
  · rintro (h | ⟨⟨key, hSent⟩, key', hCached⟩)
    · exact sameEnd_of_leaves hPlain hBody h
    · cases hExec : exec body raw with
      | ok sent =>
        rw [leaves_of_exec hPlain hBody hExec] at hSent
        cases hSent
      | error fault =>
        cases hApply : b.apply raw with
        | ok cached =>
          rw [leaves_of_apply hApply] at hCached
          cases hCached
        | error fault' => exact (fault_of_exec hExec).trans (fault_of_apply hPlain hBody hApply).symm

/-- A draft that is counted and put in its final words. -/
def redraft : Batch where
  className := "Note"
  operations :=
    [.set "text" (.raw (.string "draft")), .increment "edits" (.int 1),
      .set "text" (.raw (.string "done"))]

theorem exec_compose_iff_redraft :
    (∀ o ∈ redraft.operations, o.IsPlain) ∧ ∃ body, redraft.compose = .ok body ∧
      SameEnd (exec body [(.string "edits", .int 1)]) (redraft.apply [(.string "edits", .int 1)]) := by
  have hPlain : ∀ o ∈ redraft.operations, o.IsPlain := by
    simp [redraft, Operation.IsPlain, Value.json, Json.get?]
  refine ⟨hPlain, _, rfl, ((exec_compose_iff hPlain _).2 _ rfl).mpr (.inl fun key => ?_)⟩
  by_cases hText : key = "text"
  · subst hText
    rfl
  · by_cases hEdits : key = "edits"
    · subst hEdits
      rfl
    · simp [redraft, on, last, Operation.key, Ne.symm hText, Ne.symm hEdits]

/-- Two tags, one at a time. -/
def twoTags : Batch where
  className := "Note"
  operations := [.add "tags" [.string "a"], .add "tags" [.string "b"]]

/-- Only the second tag is sent, and both are applied. -/
theorem exec_compose_twoTags :
    (∀ o ∈ twoTags.operations, o.IsPlain) ∧ ∃ body, twoTags.compose = .ok body ∧
      exec body [] = .ok [(.string "tags", .array [.string "b"])] ∧
      twoTags.apply [] = .ok [(.string "tags", .array [.string "a", .string "b"])] ∧
      ¬ SameEnd (exec body []) (twoTags.apply []) := by
  refine ⟨by simp [twoTags, Operation.IsPlain], _, rfl, rfl, rfl, fun h => ?_⟩
  have hTags : some (Json.array [.string "b"]) = some (.array [.string "a", .string "b"]) := h (.string "tags")
  simp at hTags

end Batch

end RecordCache
