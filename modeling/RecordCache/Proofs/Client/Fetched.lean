import RecordCache.Proofs.Client.Fallback
import RecordCache.Proofs.Json.ReadBack
import RecordCache.Proofs.Keyed

/-!
# Fetched records

A server answers with documents, and a document has a text. So have the records that are read from one, and thus
all records that are fetched.
-/

namespace RecordCache

namespace Json

theorem isWritable_array (items : List Json) :
    (array items).isWritable = true ↔ ∀ j ∈ items, j.isWritable = true := by
  rw [isWritable, allWritable_iff]

theorem isWritable_object (fields : List (String × Json)) :
    (object fields).isWritable = true ↔ ∀ e ∈ fields, e.2.isWritable = true := by
  rw [isWritable, fieldsWritable_iff]

theorem isWritable_scalar (s : Scalar) : s.json.isWritable = true := by cases s <;> rfl

theorem isWritable_of_iterate {j : Json} {items : List Json} (hWritable : j.isWritable = true)
    (h : j.iterate = .ok items) : ∀ item ∈ items, item.isWritable = true := by
  rw [iterate.eq_def] at h
  split at h <;> cases h
  case h_1 => exact (isWritable_array items).mp hWritable
  case h_4 =>
    rw [isWritable, allWritable_iff] at hWritable
    exact hWritable
  case h_6 => cases hWritable
  all_goals
    intro item hItem
    obtain ⟨_, -, rfl⟩ := List.mem_map.mp hItem
    first | rfl | exact isWritable_scalar _

end Json

namespace Keyed

theorem isWritable_json {entries : Keyed Json} (h : ∀ e ∈ entries, e.2.isWritable = true) :
    (json entries).isWritable = true := by
  rw [json]
  cases hFields : entries.fields? with
  | some fields =>
    refine (Json.isWritable_object fields).mpr fun field hField => ?_
    obtain ⟨e, he, hContent⟩ := content_of_fields? hFields hField
    exact hContent ▸ h e he
  | none =>
    rw [Json.isWritable, Json.allWritable_iff]
    intro part hPart
    obtain ⟨e, he, hPart⟩ := List.mem_flatMap.mp hPart
    rcases List.mem_pair.mp hPart with rfl | rfl
    · exact Json.isWritable_scalar e.1
    · exact h e he

end Keyed

namespace Record

theorem isWritable_of_entry? {j : Json} {e : Scalar × Json} (hWritable : j.isWritable = true)
    (h : j.entry? = .ok e) : e.2.isWritable = true := by
  obtain ⟨parts, hParts, h⟩ := Except.bind_eq_ok.mp h
  split at h
  · next name value =>
    split at h <;> cases h
    exact Json.isWritable_of_iterate hWritable hParts value (List.mem_pair.mpr (.inr rfl))
  · cases h

theorem isWritable_of_entries {j : Json} {entries : Keyed Json} (hWritable : j.isWritable = true)
    (h : j.entries = .ok entries) : ∀ e ∈ entries, e.2.isWritable = true := by
  intro e he
  rw [Json.entries] at h
  split at h
  · next keyed hKeyed =>
    cases h
    rw [Keyed.ofJson?.eq_def] at hKeyed
    split at hKeyed <;> cases hKeyed
    · obtain ⟨field, hField, rfl⟩ := List.mem_map.mp he
      exact (Json.isWritable_object _).mp hWritable field hField
    · rw [Json.isWritable, Json.allWritable_iff] at hWritable
      exact hWritable _ (Keyed.mem_ofParts he)
  · split at h
    · cases h
      cases he
    · obtain ⟨items, hItems, h⟩ := Except.bind_eq_ok.mp h
      obtain ⟨pairs, hPairs, h⟩ := Except.bind_eq_ok.mp h
      cases h
      obtain ⟨pair, hPair, hValue⟩ := Keyed.mem_ofList he
      obtain ⟨item, hItem, hEntry⟩ := (Except.mem_of_mapM_eq_ok hPairs pair).mp hPair
      exact hValue ▸ isWritable_of_entry? (Json.isWritable_of_iterate hWritable hItems item hItem) hEntry

theorem isWritable_ofJson {j : Json} {r : Record} (hWritable : j.isWritable = true) (h : ofJson j = .ok r) :
    r.json.isWritable = true := by
  obtain ⟨entries, hEntries, hRecord⟩ := Except.bind_eq_ok.mp h
  cases hRecord
  exact Keyed.isWritable_json (isWritable_of_entries hWritable hEntries)

end Record

namespace Session

variable {κ α β γ : Type}

/-- What the server answers has a text, as documents have. -/
def AnswersWritable (s : Session κ α) : Prop :=
  ∀ answer ∈ s.server, ∀ call j, answer call = .ok j → j.isWritable = true

/-- As long as the server answers with what has a text, all that the work returns is of this kind. -/
def Yields (P : β → Prop) (work : Work κ α β) : Prop :=
  ∀ s r t, s.AnswersWritable → Runs work s r t → t.AnswersWritable ∧ ∀ b, r = .ok b → P b

namespace Yields

variable {P : β → Prop} {R : γ → Prop}

theorem of_runs {work : Work κ α β}
    (h : ∀ s, s.AnswersWritable → ∃ r t, Runs work s r t ∧ t.AnswersWritable ∧ ∀ b, r = .ok b → P b) :
    Yields P work := by
  intro s r t hAnswers hRun
  obtain ⟨known, u, hKnown, hEnd⟩ := h s hAnswers
  obtain ⟨rfl, rfl⟩ := hRun.unique hKnown
  exact hEnd

theorem ret {b : β} (h : P b) : Yields P (pure b : Work κ α β) :=
  of_runs fun s hAnswers => ⟨_, s, .ret b s, hAnswers, fun _ hSame => Except.ok.inj hSame ▸ h⟩

theorem ofExcept {r : Except Error β} (h : ∀ b, r = .ok b → P b) : Yields P (Session.ofExcept r : Work κ α β) :=
  of_runs fun s hAnswers => ⟨r, s, runs_ofExcept r s, hAnswers, h⟩

theorem fail (e : Error) : Yields P (throw e : Work κ α β) :=
  of_runs fun s hAnswers => ⟨_, s, .fail e s, hAnswers, nofun⟩

theorem bind {work : Work κ α β} {next : β → Work κ α γ} (h : Yields P work)
    (hNext : ∀ b, P b → Yields R (next b)) : Yields R (work >>= next) := by
  intro s r t hAnswers hRun
  obtain ⟨b, u, hFirst, hRest⟩ | ⟨e, rfl, hFirst⟩ := Runs.bind_iff.mp hRun
  · obtain ⟨hLeft, hKind⟩ := h _ _ _ hAnswers hFirst
    exact hNext b (hKind b rfl) _ _ _ hLeft hRest
  · exact ⟨(h _ _ _ hAnswers hFirst).1, nofun⟩

theorem send (call : Call) : Yields (fun j => j.isWritable = true) (Session.send call : Work κ α Json) := by
  refine of_runs fun s hAnswers => ?_
  have hLeft : ∀ answer ∈ s.server.tail, ∀ call j, answer call = .ok j → j.isWritable = true :=
    fun answer hMem => hAnswers answer (List.mem_of_mem_tail hMem)
  have hReply : ∀ j, s.reply call = .ok j → j.isWritable = true :=
    of_reply (P := fun said => ∀ j, said = .ok j → j.isWritable = true) nofun fun answer hMem =>
      hAnswers answer hMem call
  exact ⟨_, _, runs_send_reply call s, hLeft, hReply⟩

/-- The records can be written. -/
abbrev Writable (records : List Record) : Prop := ∀ r ∈ records, r.json.isWritable = true

theorem recordsOf {answer : Json} (hAnswer : answer.isWritable = true) :
    Yields Writable (Session.recordsOf answer : Work κ α (List Record)) := by
  have hField : Yields (fun field : Option Json => ∀ j ∈ field, j.isWritable = true)
      (Session.field? answer "results" : Work κ α (Option Json)) := by
    cases answer with
    | object fields =>
      exact ret fun j hj => (Json.isWritable_object fields).mp hAnswer _ (Assoc.mem_of_get? hj)
    | _ => exact fail _
  refine hField.bind fun field hWritable => ?_
  cases field with
  | none => exact ret (List.forall_mem_nil _)
  | some results =>
    refine ofExcept fun records hRecords r hr => ?_
    obtain ⟨items, hItems, hRecords⟩ := Except.bind_eq_ok.mp (Except.mapError_eq_ok.mp hRecords)
    obtain ⟨item, hItem, hRecord⟩ := (Except.mem_of_mapM_eq_ok hRecords r).mp hr
    exact Record.isWritable_ofJson (Json.isWritable_of_iterate (hWritable results rfl) hItems item hItem) hRecord

theorem findRecords (className : String) (params : Fields Json) :
    Yields Writable (Session.findRecords className params : Work κ α (List Record)) :=
  (send _).bind fun _ hAnswer => recordsOf hAnswer

theorem pagesFrom {visit : List Record → Work κ α Unit}
    (hVisit : ∀ page, Writable page → Yields (fun _ => True) (visit page))
    (className : String) (params : Fields Json) (size : Json) (limit : Nat) (skip : Number) :
    Yields Writable (Session.pagesFrom className params size visit limit skip) := by
  induction limit generalizing skip with
  | zero => exact ret (List.forall_mem_nil _)
  | succ limit ih =>
    rw [Session.pagesFrom]
    refine (findRecords _ _).bind fun page hPage => (hVisit page hPage).bind fun _ _ => ?_
    split
    · exact fail _
    · split
      · exact ret hPage
      · split
        · exact fail _
        · exact (ih _).bind fun rest hRest => ret (List.forall_mem_append.mpr ⟨hPage, hRest⟩)

theorem fetchAll (conditions : ConstraintSet) :
    Yields Writable (Session.fetchAll conditions : Work κ α (List Record)) := by
  have hParams : Yields (fun _ => True) (Session.ofExcept conditions.compose : Work κ α Where) :=
    ofExcept fun _ _ => trivial
  have hState : Yields (fun _ => True) (get : Work κ α (Session κ α)) :=
    of_runs fun s hAnswers => ⟨_, s, .state s, hAnswers, fun _ _ => trivial⟩
  exact hParams.bind fun _ _ => hState.bind fun _ _ => pagesFrom (fun _ _ => ret trivial) _ _ _ _ _

end Yields

end Session

end RecordCache
