import RecordCache.Proofs.Keyed
import RecordCache.Proofs.Value.RoundTrip

/-!
# Access control lists there and back

A rule is written with the permissions that it grants and those that it denies explicitly, and comes back with
exactly these as its explicit ones. So what is written reads as a list that is written the same, and an object of
permissions is written as it was.
-/

namespace RecordCache

namespace Acl

namespace Rule

variable {r : Rule} {perms : Fields Json} {key : String} {allowed : Json}

/-- The name of the principal, if it is a text. -/
def name (r : Rule) : String := r.principal.string?.getD ""

/-- The rule as it comes back: everything is granted or denied, and explicit just where it was written. -/
def restored (r : Rule) : Rule where
  principal := r.principal
  read := .bool r.read.truthy
  write := .bool r.write.truthy
  explicit := r.permissions.keys

/-- The rule that an object of permissions gives. -/
def granted (principal : String) (perms : Fields Json) : Rule where
  principal := .string principal
  read := .bool ((perms.get? "read").getD (.bool false)).truthy
  write := .bool ((perms.get? "write").getD (.bool false)).truthy
  explicit := ["read", "write"].filter fun key => (perms.get? key).isSome

theorem ofPermissions_object (principal : String) (perms : Fields Json) :
    ofPermissions (.string principal) (.object perms) = .ok (granted principal perms) := rfl

/-- The rule that an entry gives. -/
def ofEntry : String × Json → Rule
  | (name, .object perms) => granted name perms
  | (name, _) => granted name []

theorem name_ofEntry (e : String × Json) : (ofEntry e).principal = .string e.1 ∧ (ofEntry e).name = e.1 := by
  obtain ⟨name, content⟩ := e
  cases content <;> exact ⟨rfl, rfl⟩

/-! ### What is written -/

/-- A permission is written when it is granted or explicit. -/
theorem get?_permissions (r : Rule) :
    r.permissions.get? "read" =
        (if r.read.truthy || r.explicit.contains "read" then some (.bool r.read.truthy) else none) ∧
      r.permissions.get? "write" =
        if r.write.truthy || r.explicit.contains "write" then some (.bool r.write.truthy) else none := by
  rw [permissions, permission, permission]
  constructor <;> split <;> split <;> rfl

theorem keys_permissions (r : Rule) :
    r.permissions.keys = ["read", "write"].filter fun key => (r.permissions.get? key).isSome := by
  rw [permissions, permission, permission]
  split <;> split <;> rfl

theorem isTruth_of_mem_permissions {e : String × Json} (h : e ∈ r.permissions) : e.2.isTruth = true := by
  have hPermission {key : String} {allowed : Json} (h : e ∈ r.permission key allowed) : e.2.isTruth = true := by
    rw [permission] at h
    split at h
    · obtain rfl := List.mem_singleton.mp h
      rfl
    · cases h
  exact (List.mem_append.mp h).elim hPermission hPermission

theorem nodup_keys_permissions (r : Rule) : r.permissions.keys.Nodup := by
  rw [keys_permissions]
  exact List.Pairwise.filter _ (by decide)

theorem isDocument_permissions (r : Rule) : (Json.object r.permissions).isDocument = true := by
  refine (Json.isDocument_object _).mpr ⟨nodup_keys_permissions r, fun e he => ?_⟩
  have hTruth := isTruth_of_mem_permissions he
  cases hValue : e.2 <;> rw [hValue] at hTruth <;> first | rfl | cases hTruth

theorem granted_permissions (r : Rule) :
    granted r.name r.permissions = { r.restored with principal := .string r.name } := by
  obtain ⟨hRead, hWrite⟩ := get?_permissions r
  rw [granted, restored, ← keys_permissions, hRead, hWrite]
  congr 1
  · cases r.read.truthy <;> cases r.explicit.contains "read" <;> rfl
  · cases r.write.truthy <;> cases r.explicit.contains "write" <;> rfl

theorem permissions_restored (r : Rule) : r.restored.permissions = r.permissions := by
  have hKeys (key : String) : r.restored.explicit.contains key = (r.permissions.get? key).isSome := by
    rw [Bool.eq_iff_iff, List.contains_iff_mem, ← Assoc.mem_keys_iff]
    rfl
  obtain ⟨hRead, hWrite⟩ := get?_permissions r
  rw [permissions, permission, permission, hKeys, hKeys, hRead, hWrite, restored, permissions, permission, permission]
  congr 1
  · cases r.read.truthy <;> cases r.explicit.contains "read" <;> rfl
  · cases r.write.truthy <;> cases r.explicit.contains "write" <;> rfl

/-! ### What is read -/

/-- Grants or denies reading and writing, both or neither. -/
structure IsGrant (perms : Fields Json) : Prop where
  distinct : perms.keys.Nodup
  known : perms.keys ⊆ ["read", "write"]
  decided : ∀ e ∈ perms, e.2.isTruth = true

theorem IsGrant.isDocument (h : IsGrant perms) : (Json.object perms).isDocument = true := by
  refine (Json.isDocument_object _).mpr ⟨h.distinct, fun e he => ?_⟩
  have hTruth := h.decided e he
  cases hValue : e.2 <;> rw [hValue] at hTruth <;> first | rfl | cases hTruth

/-- Of a permission in an object, nothing but its truth is kept, and that is all there is to it. -/
theorem IsGrant.get?_permissions (h : IsGrant perms) (principal : String) {key : String}
    (hKey : key ∈ ["read", "write"]) :
    (granted principal perms).permissions.get? key = perms.get? key := by
  have hFlag (found : Option Json) (hFound : ∀ j, found = some j → j.isTruth = true) :
      (if (found.getD (.bool false)).truthy || found.isSome then some (Json.bool (found.getD (.bool false)).truthy)
        else none) = found := by
    cases found with
    | none => rfl
    | some j =>
      have hTruth := hFound j rfl
      cases j <;> first | (rw [Option.isSome_some, Bool.or_true, if_pos rfl]; rfl) | cases hTruth
  have hTruth {key : String} (j : Json) (hField : perms.get? key = some j) : j.isTruth = true :=
    h.decided _ (Assoc.mem_of_get? hField)
  have hExplicit {key : String} (hKey : key ∈ ["read", "write"]) :
      (granted principal perms).explicit.contains key = (perms.get? key).isSome := by
    rw [Bool.eq_iff_iff, List.contains_iff_mem, granted, List.mem_filter]
    exact and_iff_right hKey
  obtain ⟨hRead, hWrite⟩ := Rule.get?_permissions (granted principal perms)
  rw [List.mem_cons, List.mem_singleton] at hKey
  rcases hKey with rfl | rfl
  · rw [hRead, hExplicit (by decide)]
    exact hFlag _ hTruth
  · rw [hWrite, hExplicit (by decide)]
    exact hFlag _ hTruth

theorem keys_permissions_subset (r : Rule) : r.permissions.keys ⊆ ["read", "write"] := by
  rw [keys_permissions]
  exact List.filter_subset_self _

theorem IsGrant.same_permissions (h : IsGrant perms) (principal : String) :
    (Json.object (granted principal perms).permissions).same (.object perms) = true := by
  have hNodup := nodup_keys_permissions (granted principal perms)
  refine Json.same_of_entries h.isDocument hNodup (fun key hKey => ?_) fun e he => ?_
  · rw [Assoc.mem_keys_iff, h.get?_permissions principal (h.known hKey), ← Assoc.mem_keys_iff]
    exact hKey
  · rw [← h.get?_permissions principal (keys_permissions_subset _ (Assoc.mem_keys_of_mem he))]
    exact Assoc.get?_of_mem hNodup he

end Rule

variable {acl : Acl} {fields : Fields Json}

/-- Every principal is a text and has one rule, and every permission is granted or denied. -/
structure IsProper (acl : Acl) : Prop where
  named : ∀ r ∈ acl.rules, r.principal = .string r.name
  distinct : (acl.rules.map Rule.name).Nodup
  decided : ∀ r ∈ acl.rules, r.read.isTruth = true ∧ r.write.isTruth = true

/-- What is written for a list whose principals are texts. -/
def written (acl : Acl) : Fields Json := acl.rules.map fun r => (r.name, .object r.permissions)

theorem keys_written (acl : Acl) : acl.written.keys = acl.rules.map Rule.name := by
  rw [written, Assoc.keys, List.map_map]
  rfl

theorem json_eq (hNamed : ∀ r ∈ acl.rules, r.principal = .string r.name)
    (hDistinct : (acl.rules.map Rule.name).Nodup) : acl.json = .object acl.written := by
  have hEntries : (acl.rules.map fun r => (Scalar.ofJson r.principal, Json.object r.permissions)) =
      Keyed.ofFields acl.written := by
    rw [Keyed.ofFields, written, List.map_map]
    exact List.map_congr_left fun r hr => by rw [hNamed r hr]; rfl
  rw [json, hEntries, Keyed.ofList_ofFields (keys_written acl ▸ hDistinct), Keyed.json_ofFields]

theorem wire_eq (hNamed : ∀ r ∈ acl.rules, r.principal = .string r.name)
    (hDistinct : (acl.rules.map Rule.name).Nodup) : acl.wire = .ok (.object acl.written) := by
  have hScalars : acl.isNamed = true := List.all_eq_true.mpr fun r hr => by rw [hNamed r hr]; rfl
  rw [wire, if_pos hScalars, json_eq hNamed hDistinct]

theorem ofJson_eq {rule : String × Json → Rule}
    (h : ∀ e ∈ fields, Rule.ofPermissions (.string e.1) e.2 = .ok (rule e)) :
    ofJson (.object fields) = .ok ⟨fields.map rule⟩ := by
  have hRules : (Keyed.ofFields fields).mapM (fun e => Rule.ofPermissions e.1 e.2) = .ok (fields.map rule) := by
    rw [Except.mapM_eq_ok, Keyed.ofFields, List.forall₂_map_left_iff, List.forall₂_map_right_iff]
    exact List.forall₂_same.mpr h
  exact congrArg (fun rules => Acl.mk <$> rules) hRules

/-! ### There and back -/

theorem written_as_read (hKeys : fields.keys.Nodup)
    (hGrants : ∀ e ∈ fields, ∃ perms, e.2 = .object perms ∧ Rule.IsGrant perms) :
    ∃ acl : Acl, ofJson (.object fields) = .ok acl ∧ acl.wire = .ok (.object acl.written) ∧
      acl.written.keys = fields.keys ∧ (Json.object acl.written).same (.object fields) = true := by
  have hRules : ∀ e ∈ fields, Rule.ofPermissions (.string e.1) e.2 = .ok (Rule.ofEntry e) := by
    rintro ⟨name, content⟩ he
    obtain ⟨perms, rfl, -⟩ := hGrants _ he
    exact Rule.ofPermissions_object name perms
  have hNamed : ∀ r ∈ fields.map Rule.ofEntry, r.principal = .string r.name := by
    intro r hr
    obtain ⟨e, -, rfl⟩ := List.mem_map.mp hr
    rw [(Rule.name_ofEntry e).1, (Rule.name_ofEntry e).2]
  have hNames : (fields.map Rule.ofEntry).map Rule.name = fields.keys := by
    rw [List.map_map]
    exact List.map_congr_left fun e _ => (Rule.name_ofEntry e).2
  refine ⟨⟨fields.map Rule.ofEntry⟩, ofJson_eq hRules, wire_eq hNamed (hNames ▸ hKeys),
    (keys_written _).trans hNames, (Json.same_object_left _ _).mpr ⟨fields, rfl, ?_, ?_⟩⟩
  · rw [written, List.length_map, List.length_map]
  · intro entry hEntry
    obtain ⟨r, hr, rfl⟩ := List.mem_map.mp hEntry
    obtain ⟨⟨name, content⟩, he, rfl⟩ := List.mem_map.mp hr
    obtain ⟨perms, rfl, hGrant⟩ := hGrants _ he
    refine ⟨_, Assoc.get?_of_mem hKeys he, ?_⟩
    rw [Json.alike, Bool.or_eq_true_iff]
    exact .inr (hGrant.same_permissions name)

/-- The list as it comes back. -/
def restored (acl : Acl) : Acl := ⟨acl.rules.map Rule.restored⟩

theorem written_restored (acl : Acl) : acl.restored.written = acl.written := by
  rw [written, restored, List.map_map]
  exact List.map_congr_left fun r _ => congrArg (fun perms => (r.name, Json.object perms)) (Rule.permissions_restored r)

/-- A list whose principals are texts with one rule each comes back with the restored rules, which are written the
same. -/
theorem read_back (hNamed : ∀ r ∈ acl.rules, r.principal = .string r.name)
    (hDistinct : (acl.rules.map Rule.name).Nodup) :
    ofJson (.object acl.written) = .ok acl.restored ∧ acl.restored.json = .object acl.written ∧
      acl.restored.wire = .ok (.object acl.written) := by
  have hRules : ∀ r ∈ acl.rules, Rule.granted r.name r.permissions = r.restored := by
    intro r hr
    rw [Rule.granted_permissions, ← hNamed r hr]
    rfl
  have hEntries : ∀ e ∈ acl.written, Rule.ofPermissions (.string e.1) e.2 = .ok (Rule.ofEntry e) := by
    intro e he
    obtain ⟨r, -, rfl⟩ := List.mem_map.mp he
    exact Rule.ofPermissions_object r.name r.permissions
  have hNames : acl.restored.rules.map Rule.name = acl.rules.map Rule.name := by
    rw [restored, List.map_map]
    rfl
  have hRestored : ∀ r ∈ acl.restored.rules, r.principal = .string r.name := by
    intro r hr
    obtain ⟨original, hOriginal, rfl⟩ := List.mem_map.mp hr
    exact hNamed original hOriginal
  refine ⟨?_, ?_, ?_⟩
  · rw [ofJson_eq hEntries, restored, written, List.map_map]
    exact congrArg (fun rules => Except.ok (Acl.mk rules)) (List.map_congr_left hRules)
  · rw [json_eq hRestored (hNames ▸ hDistinct), written_restored]
  · rw [wire_eq hRestored (hNames ▸ hDistinct), written_restored]

theorem isDocument_written (hDistinct : (acl.rules.map Rule.name).Nodup) :
    (Json.object acl.written).isDocument = true := by
  refine (Json.isDocument_object _).mpr ⟨keys_written acl ▸ hDistinct, fun e he => ?_⟩
  obtain ⟨r, -, rfl⟩ := List.mem_map.mp he
  exact Rule.isDocument_permissions r

/-- The rule of a principal, listed or not, comes back with what it grants and denies. -/
theorem rule_restored (hDecided : ∀ r ∈ acl.rules, r.read.isTruth = true ∧ r.write.isTruth = true)
    (principal : Json) :
    (acl.restored.rule principal).read = (acl.rule principal).read ∧
      (acl.restored.rule principal).write = (acl.rule principal).write := by
  have hTruth {j : Json} (h : j.isTruth = true) : .bool j.truthy = j := by cases j <;> first | rfl | cases h
  have hFind : acl.restored.rules.find? (fun r => r.principal.same principal) =
      (acl.rules.find? fun r => r.principal.same principal).map Rule.restored := by
    rw [restored, List.find?_map]
    rfl
  rw [rule, rule, hFind]
  cases hFound : acl.rules.find? (fun r => r.principal.same principal) with
  | none => exact ⟨rfl, rfl⟩
  | some r =>
    obtain ⟨hRead, hWrite⟩ := hDecided r (List.mem_of_find?_eq_some hFound)
    exact ⟨hTruth hRead, hTruth hWrite⟩

/-- Access control lists come back, explicit denials included. -/
theorem comes_back :
    (∀ fields : Fields Json, fields.keys.Nodup →
      (∀ e ∈ fields, ∃ perms, e.2 = .object perms ∧ Rule.IsGrant perms) →
      ∃ (acl : Acl) (written : Fields Json), ofJson (.object fields) = .ok acl ∧
        acl.wire = .ok (.object written) ∧ written.keys = fields.keys ∧
        (Json.object written).same (.object fields) = true) ∧
    ∀ acl : Acl, acl.IsProper →
      ∃ (j : Json) (back : Acl), acl.wire = .ok j ∧ ofJson j = .ok back ∧ back.wire = .ok j ∧
        (Value.acl back).same (.acl acl) = true ∧
        back.rules.map (·.principal) = acl.rules.map (·.principal) ∧
        ∀ principal : Json, (back.rule principal).read = (acl.rule principal).read ∧
          (back.rule principal).write = (acl.rule principal).write := by
  constructor
  · intro fields hKeys hGrants
    obtain ⟨acl, hRead, hWire, hOrder, hSame⟩ := written_as_read hKeys hGrants
    exact ⟨acl, acl.written, hRead, hWire, hOrder, hSame⟩
  · rintro acl ⟨hNamed, hDistinct, hDecided⟩
    obtain ⟨hBack, hJson, hWire⟩ := read_back hNamed hDistinct
    refine ⟨.object acl.written, acl.restored, wire_eq hNamed hDistinct, hBack, hWire, ?_, ?_,
      rule_restored hDecided⟩
    · rw [Value.same, hJson, json_eq hNamed hDistinct]
      exact Json.same_self (isDocument_written hDistinct) rfl
    · rw [restored, List.map_map]
      rfl

/-- Everyone reads and is denied writing; a user is denied reading, and a role has a rule that says nothing. -/
theorem comes_back_denials :
    (∃ (acl : Acl) (written : Fields Json),
      ofJson (.object [("*", .object [("write", .bool false), ("read", .bool true)])]) = .ok acl ∧
      acl.wire = .ok (.object written) ∧ written.keys = ["*"] ∧
      (Json.object written).same (.object [("*", .object [("write", .bool false), ("read", .bool true)])]) = true) ∧
    ∃ (j : Json) (back : Acl),
      (Acl.mk [{ principal := .string "u1", write := .bool true, explicit := ["read"] },
        { principal := .string "role:staff" }]).wire = .ok j ∧
      ofJson j = .ok back ∧ back.wire = .ok j ∧
      (back.rule (.string "u1")).read = .bool false ∧ (back.rule (.string "u1")).write = .bool true ∧
      (back.rule (.string "u2")).write = .bool false := by
  constructor
  · refine comes_back.1 _ (by decide) ?_
    rintro e he
    obtain rfl := List.mem_singleton.mp he
    exact ⟨_, rfl, by decide, by decide, by decide⟩
  · obtain ⟨j, back, hWire, hBack, hAgain, -, -, hRule⟩ := comes_back.2
      ⟨[{ principal := .string "u1", write := .bool true, explicit := ["read"] },
        { principal := .string "role:staff" }]⟩ ⟨by simp [Rule.name, Json.string?], by decide, by decide⟩
    refine ⟨j, back, hWire, hBack, hAgain, (hRule _).1.trans ?_, (hRule _).2.trans ?_, (hRule _).2.trans ?_⟩ <;>
      simp [rule, Json.same, Json.sameScalar, Json.numeric?]

end Acl
end RecordCache
