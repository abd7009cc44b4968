import RecordCache.Error
import RecordCache.Scalar

/-!
Access control lists: who may read and write an object. The wire form names a principal with an
object of the permissions granted to it, and of those denied explicitly.
-/

namespace RecordCache

namespace Acl

/-- The permissions of one principal: a user id, a role, or `*` for everyone. A permission that is
`explicit` is written out even when it is denied. -/
structure Rule where
  principal : Json
  read : Json := .bool false
  write : Json := .bool false
  explicit : List String := []

namespace Rule

/-- The same principal with the same permissions; what is explicit does not count. -/
def same (a b : Rule) : Bool :=
  a.principal.alike b.principal && a.read.alike b.read && a.write.alike b.write

def permission (r : Rule) (key : String) (allowed : Json) : Fields Json :=
  if allowed.truthy || r.explicit.contains key then [(key, .bool allowed.truthy)] else []

def permissions (r : Rule) : Fields Json := r.permission "read" r.read ++ r.permission "write" r.write

def display (r : Rule) : String :=
  s!"ACLRule({r.principal.display}, read={r.read.plainDisplay}, write={r.write.plainDisplay})"

def ofPermissions (principal : Scalar) (permissions : Json) : Except DataFault Rule :=
  match Keyed.ofJson? permissions with
  | some _ =>
    let flag key := Json.bool (((permissions.get? key).getD (.bool false)).truthy)
    .ok { principal := principal.json, read := flag "read", write := flag "write",
          explicit := ["read", "write"].filter fun key => (permissions.get? key).isSome }
  | none => .error .notPermissions

end Rule

end Acl

structure Acl where
  rules : List Acl.Rule

namespace Acl

def isNamed (acl : Acl) : Bool := acl.rules.all fun r => r.principal.isScalar

def json (acl : Acl) : Json :=
  Keyed.json (Keyed.ofList (acl.rules.map fun r => (Scalar.ofJson r.principal, .object r.permissions)))

def wire (acl : Acl) : Except DataFault Json := if acl.isNamed then .ok acl.json else .error .compositeKey

def ofJson (j : Json) : Except DataFault Acl :=
  match Keyed.ofJson? j with
  | some entries => return ⟨← entries.mapM fun (name, permissions) => Rule.ofPermissions name permissions⟩
  | none => .error .notPermissions

def ownerOnlyWrite (owner : Json) : Acl :=
  ⟨[{ principal := .string "*", read := .bool true },
    { principal := owner, read := .bool true, write := .bool true }]⟩

def everyone : Acl := ⟨[{ principal := .string "*", read := .bool true, write := .bool true }]⟩

/-- The rule of a principal; one that is not listed may do nothing. -/
def rule (acl : Acl) (principal : Json) : Rule :=
  (acl.rules.find? fun r => r.principal.same principal).getD { principal }

end Acl

end RecordCache
