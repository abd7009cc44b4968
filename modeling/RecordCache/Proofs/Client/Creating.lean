import RecordCache.Client.Account
import RecordCache.Proofs.Client.Runs
import RecordCache.Proofs.Operation.Body

/-!
# Creating objects

An object that is created from fields that are set has the fields that were sent, with those on top that the server
gives to every new object.
-/

namespace RecordCache

theorem Record.merged_ofFields (own others : Fields Json) :
    (ofFields own).merged others = ofFields (Assoc.merge own others) := by
  rw [merged, ofFields, ofFields, Keyed.ofFields_merge]

namespace Session

variable {κ α : Type} {fields : Fields Json}

/-- The fields that the server gives a new object. -/
def newFields : Json → Except Error (Fields Json)
  | .object fields =>
    match Assoc.get? fields "objectId" with
    | some id =>
      let created := (Assoc.get? fields "createdAt").getD .null
      .ok [("objectId", id), ("createdAt", created), ("updatedAt", (Assoc.get? fields "updatedAt").getD created)]
    | none => .error (.data (.missing "objectId"))
  | _ => .error (.data .notIndexed)

theorem keys_newFields {answer : Json} {own : Fields Json} (h : newFields answer = .ok own) :
    own.keys = ["objectId", "createdAt", "updatedAt"] := by
  rw [newFields.eq_def] at h
  split at h
  · split at h
    · cases h
      rfl
    · cases h
  · cases h

theorem runs_newFields (raw : Keyed Json) (answer : Json) (s : Session κ α) :
    Runs (do
      let id ← requireField answer "objectId"
      let created := (← field? answer "createdAt").getD .null
      let updated := (← field? answer "updatedAt").getD created
      return Record.merged { raw } [("objectId", id), ("createdAt", created), ("updatedAt", updated)] :
        Work κ α Record) s (Record.merged { raw } <$> newFields answer) s := by
  cases answer with
  | object fields =>
    simp only [requireField, newFields]
    cases Assoc.get? fields "objectId" with
    | none => exact .bind_fail (.fail _ _)
    | some id => exact .bind (.ret id _) (.bind (.ret _ _) (.bind (.ret _ _) (.ret _ _)))
  | _ => exact .bind_fail (.fail _ _)

/-- The request for a new object. -/
def creation (className : String) (body : Fields Json) : Call :=
  .request "POST" (Schema.path className .null) (some (.object body))

theorem runs_sendNew {b : Batch} {body : Fields Json} {raw : Keyed Json} (hNew : b.requireNew = .ok ())
    (hBody : b.compose = .ok body) (hRaw : b.apply [] = .ok raw) (s : Session κ α) :
    Runs (sendNew b) s (Record.merged { raw } <$> (s.reply (creation b.className body) >>= newFields))
      (s.sent (creation b.className body)) := by
  have hAsked := runs_send_reply (creation b.className body) s
  rw [sendNew, hNew, hBody, hRaw]
  refine .bind (runs_ofExcept (.ok ()) _) (.bind (runs_ofExcept (.ok body) _) ?_)
  cases hReply : s.reply (creation b.className body) with
  | error e =>
    rw [hReply] at hAsked
    exact hAsked.bind_fail
  | ok answer =>
    rw [hReply] at hAsked
    exact .bind hAsked (.bind (runs_ofExcept (.ok raw) _) (runs_newFields raw answer _))

/-! ### Fields that are set -/

/-- What is sent of fields that are set. -/
def wired (values : Fields Value) : Fields Json := values.map fun e => (e.1, e.2.json)

theorem keys_wired (values : Fields Value) : (wired values).keys = values.keys := by simp [wired, Assoc.keys]

def settingAll (className : String) (values : Fields Value) : Batch where
  className
  operations := values.map fun e => .set e.1 e.2

theorem runs_sendNew_sets (className : String) (values : Fields Value) (s : Session κ α) :
    Runs (sendNew (settingAll className values)) s
      ((Record.ofFields (Assoc.ofList (wired values))).merged <$>
        (s.reply (creation className (Assoc.ofList (wired values))) >>= newFields))
      (s.sent (creation className (Assoc.ofList (wired values)))) := by
  have hRaw : (settingAll className values).apply [] = .ok (Keyed.ofFields (Assoc.ofList (wired values))) := by
    rw [Batch.apply_sets rfl, Assoc.ofList, Keyed.ofFields_merge]
    rfl
  exact runs_sendNew rfl (Batch.compose_sets rfl) hRaw s

/-- The values that fields are set to. -/
def inputs (fields : Fields Json) : Except Error (Fields Value) :=
  fields.mapM fun e => (e.1, ·) <$> Value.ofArgument e.2

theorem inputs_cons (name : String) (value : Json) (rest : Fields Json) :
    inputs ((name, value) :: rest) = (do return (name, ← Value.ofArgument value) :: (← inputs rest)) := by
  rw [inputs, List.mapM_cons]
  cases Value.ofArgument value <;> rfl

theorem keys_inputs {values : Fields Value} (h : inputs fields = .ok values) : values.keys = fields.keys := by
  induction fields generalizing values with
  | nil =>
    cases h
    rfl
  | cons entry rest ih =>
    rw [inputs_cons] at h
    obtain ⟨value, -, hRest⟩ := Except.bind_eq_ok.mp h
    obtain ⟨others, hOthers, hSame⟩ := Except.bind_eq_ok.mp hRest
    cases hSame
    exact congrArg (entry.1 :: ·) (ih hOthers)

theorem runs_setting (className : String) (fields : Fields Json) (s : Session κ α) :
    Runs (setting className fields) s (settingAll className <$> inputs fields) s := by
  suffices hOperations : Runs (fields.mapM fun e => ofExcept (Operation.setArgument e.1 e.2) : Work κ α _) s
      ((fun values => values.map fun e => .set e.1 e.2) <$> inputs fields) s by
    rw [setting]
    cases hInputs : inputs fields with
    | error e =>
      rw [hInputs] at hOperations
      exact hOperations.bind_fail
    | ok values =>
      rw [hInputs] at hOperations
      exact hOperations.bind (.ret _ _)
  induction fields with
  | nil => exact .ret _ _
  | cons entry rest ih =>
    rw [List.mapM_cons, inputs_cons]
    have hFirst := runs_ofExcept (Operation.setArgument entry.1 entry.2) s
    rw [Operation.setArgument] at hFirst ⊢
    cases hValue : Value.ofArgument entry.2 with
    | error e =>
      rw [hValue] at hFirst
      exact hFirst.bind_fail
    | ok value =>
      rw [hValue] at hFirst
      refine .bind hFirst ?_
      cases hRest : inputs rest with
      | error e =>
        rw [hRest] at ih
        exact ih.bind_fail
      | ok values =>
        rw [hRest] at ih
        exact ih.bind (.ret _ _)

end Session

end RecordCache
