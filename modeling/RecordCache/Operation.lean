import RecordCache.Argument

/-!
Changes to one field of an object. `Operation.compose` puts a change into the body of a request, and
`Operation.apply` makes the same change to the fields of a cached record.
-/

namespace RecordCache

inductive Operation
  | set (key : String) (value : Value)
  | add (key : String) (objects : List Json)
  | addUnique (key : String) (objects : List Json)
  | remove (key : String) (objects : List Json)
  | increment (key : String) (amount : Number)
  | addRelation (key : String) (member : Pointer)
  | removeRelation (key : String) (member : Pointer)
  /-- The owner's id may be any document; only a scalar can be sent. -/
  | setSecurity (owner : Json)
  | clearSecurity
  | delete (key : String)

namespace Operation

def kind : Operation → String
  | .set _ _ => "SetValue"
  | .add _ _ => "Add"
  | .addUnique _ _ => "AddUnique"
  | .remove _ _ => "Remove"
  | .increment _ _ => "Increment"
  | .addRelation _ _ => "AddRelation"
  | .removeRelation _ _ => "RemoveRelation"
  | .setSecurity _ => "SetSecurity"
  | .clearSecurity => "ClearSecurity"
  | .delete _ => "DeleteColumn"

def key : Operation → String
  | .set key _ => key
  | .add key _ => key
  | .addUnique key _ => key
  | .remove key _ => key
  | .increment key _ => key
  | .addRelation key _ => key
  | .removeRelation key _ => key
  | .setSecurity _ => "ACL"
  | .clearSecurity => "ACL"
  | .delete key => key

def instruction (op : String) (arguments : Fields Json) : Json := .object (("__op", .string op) :: arguments)

def onObjects (op : String) (objects : List Json) : Json :=
  instruction op [("objects", .array objects)]

def wire : Operation → Except DataFault Json
  | .set _ value => .ok value.json
  | .add _ objects => .ok (onObjects "Add" objects)
  | .addUnique _ objects => .ok (onObjects "AddUnique" objects)
  | .remove _ objects => .ok (onObjects "Remove" objects)
  | .increment _ amount => .ok (instruction "Increment" [("amount", .number amount)])
  | .addRelation _ member => .ok (onObjects "AddRelation" [member.toRef.json])
  | .removeRelation _ member => .ok (onObjects "RemoveRelation" [member.toRef.json])
  | .setSecurity owner => (Acl.ownerOnlyWrite owner).wire
  | .clearSecurity => Acl.everyone.wire
  | .delete _ => .ok (instruction "Delete" [])

def compose (o : Operation) (body : Fields Json) : Except DataFault (Fields Json) :=
  return body.set o.key (← o.wire)

/-! ### Changing a record -/

def currentItems (raw : Keyed Json) (key : String) : List Json :=
  ((Assoc.get? raw (.string key)).bind Json.array?).getD []

def currentNumber (raw : Keyed Json) (key : String) : Number :=
  match Assoc.get? raw (.string key) with
  | some (.number n) => n
  | _ => .int 0

def setField (raw : Keyed Json) (key : String) (value : Json) : Keyed Json := Assoc.set raw (.string key) value

def appendUnique (items : List Json) (object : Json) : List Json :=
  if object.among items then items else items ++ [object]

/-- Members of relations are no part of a record. -/
def apply (raw : Keyed Json) : Operation → Except DataFault (Keyed Json)
  | .set key value => .ok (setField raw key value.json)
  | .add key objects => .ok (setField raw key (.array (currentItems raw key ++ objects)))
  | .addUnique key objects =>
    .ok (setField raw key (.array (objects.foldl appendUnique (currentItems raw key))))
  | .remove key objects =>
    .ok (setField raw key (.array ((currentItems raw key).filter fun item => !item.among objects)))
  | .increment key amount =>
    match (currentNumber raw key).add? amount with
    | some sum => .ok (setField raw key (.number sum))
    | none => .error .tooLarge
  | .addRelation _ _ => .ok raw
  | .removeRelation _ _ => .ok raw
  | .setSecurity owner => do return setField raw "ACL" (← (Acl.ownerOnlyWrite owner).wire)
  | .clearSecurity => do return setField raw "ACL" (← Acl.everyone.wire)
  | .delete key => .ok (Assoc.erase raw (.string key))

def display (o : Operation) : Except DataFault String := do
  return o.kind ++ "(" ++ (Json.object (← o.compose [])).display ++ ")"

/-! ### Arguments -/

def setArgument (key : String) (value : Json) : Except Error Operation := .set key <$> Value.ofArgument value

def onArguments (make : List Json → Operation) (objects : List Json) : Except Error Operation :=
  make <$> objects.mapM Json.encode

def incrementArgument (key : String) : Json → Except Error Operation
  | .number n => .ok (.increment key n)
  | _ => .error (.query .amountShape)

def onMember (make : Pointer → Operation) (member : Json) : Except Error Operation :=
  make <$> Pointer.ofArgument member

def setSecurityArgument : Json → Except Error Operation
  | .string owner => .ok (.setSecurity (.string owner))
  | owner => do return .setSecurity (← Pointer.ofArgument owner).objectId

end Operation

end RecordCache
