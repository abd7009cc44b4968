import RecordCache.Proofs.Operation.Body
import RecordCache.Proofs.Relation.Directions

/-!
# Which relation writes reach the memo

The body of a request holds the last operation on each field, so of several changes of one relation the server is
told only the last. An update brings every change of its batch into the loaded rolls, those that were not sent
among them; creating an object brings none.
-/

namespace RecordCache

/-! ### What is sent -/

/-- The last operation on each field, in their order. -/
def Operation.lastOfEach : List Operation → List Operation
  | [] => []
  | o :: rest => if rest.any (fun later => later.key = o.key) then lastOfEach rest else o :: lastOfEach rest

namespace Operation

theorem filter_lastOfEach (key : String) (operations : List Operation) :
    (lastOfEach operations).filter (fun o => o.key = key) =
      (operations.filter fun o => o.key = key).getLast?.toList := by
  induction operations with
  | nil => rfl
  | cons o rest ih =>
    rw [lastOfEach]
    split
    · next hLater =>
      obtain ⟨later, hMem, hSame⟩ := List.any_eq_true.mp hLater
      rw [ih]
      by_cases hKey : o.key = key
      · have hThere : later ∈ rest.filter fun o => o.key = key :=
          List.mem_filter.mpr ⟨hMem, by simpa [hKey] using hSame⟩
        rw [List.filter_cons_of_pos (by simpa using hKey)]
        cases hRest : rest.filter fun o => o.key = key with
        | nil =>
          rw [hRest] at hThere
          cases hThere
        | cons first more => rw [List.getLast?_cons_cons]
      · rw [List.filter_cons_of_neg (by simpa using hKey)]
    · next hLast =>
      by_cases hKey : o.key = key
      · have hNone : rest.filter (fun o => o.key = key) = [] := by
          refine List.filter_eq_nil_iff.mpr fun later hMem hSame => hLast (List.any_eq_true.mpr ⟨later, hMem, ?_⟩)
          simpa [hKey] using hSame
        rw [List.filter_cons_of_pos (by simpa using hKey), List.filter_cons_of_pos (by simpa using hKey), ih, hNone]
        rfl
      · rw [List.filter_cons_of_neg (by simpa using hKey), List.filter_cons_of_neg (by simpa using hKey), ih]

end Operation

namespace Batch

/-- The operations that the body of the request tells of. -/
def sent (b : Batch) : Batch := { b with operations := Operation.lastOfEach b.operations }

variable {b : Batch}

theorem get?_compose_sent {body : Fields Json} (h : b.compose = .ok body) (key : String) (content : Json) :
    Assoc.get? body key = some content ↔ ∃ o ∈ b.sent.operations, o.key = key ∧ o.wire = .ok content := by
  have hSent (o : Operation) : o ∈ b.sent.operations ∧ o.key = key ↔ (b.on key).operations.getLast? = some o := by
    have hFilter := Operation.filter_lastOfEach key b.operations
    rw [← Option.mem_toList, on, ← hFilter, List.mem_filter, decide_eq_true_iff]
    rfl
  have hField := (get?_compose h).2 key
  simp only [← and_assoc, hSent]
  cases hLast : (b.on key).operations.getLast? with
  | none =>
    rw [hLast] at hField
    simp [hField]
  | some o =>
    rw [hLast] at hField
    obtain ⟨written, hWire, hWritten⟩ := hField
    rw [hWritten]
    constructor
    · rintro ⟨⟩
      exact ⟨o, rfl, hWire⟩
    · rintro ⟨o', ⟨⟩, hWire'⟩
      rw [hWire] at hWire'
      exact congrArg some (Except.ok.inj hWire')

end Batch

/-! ### What the memo hears -/

namespace RelationMemo

variable {κ : Type} {m m' : RelationMemo κ} {ws heard : List LinkWrite}

/-- From the one memo to the other, every loaded roll has come to the members that the writes make of those it had. -/
def Reached (ws : List LinkWrite) (m m' : RelationMemo κ) : Prop :=
  ∀ (roll : Roll) (r : Relation), m.listed? roll.cacheKey = some r →
    ∃ r', m'.listed? roll.cacheKey = some r' ∧ ∀ id, r'.has id = (roll.link id).after ws (r.has id)

theorem Follows.reached_iff (h : Follows heard m m') :
    Reached ws m m' ↔ ∀ (roll : Roll) (r : Relation), m.listed? roll.cacheKey = some r →
      ∀ id, (roll.link id).after heard (r.has id) = (roll.link id).after ws (r.has id) := by
  refine forall₃_congr fun roll r hBefore => ?_
  rw [h.rolls, hBefore, Option.map_some]
  constructor
  · rintro ⟨r', hAfter, hHas⟩ id
    cases hAfter
    rw [← hHas, Roll.has_followAll]
  · intro hSame
    exact ⟨_, rfl, fun id => (Roll.has_followAll ..).trans (hSame id)⟩

theorem Follows.reached (h : Follows heard m m') : Reached heard m m' := h.reached_iff.mpr fun _ _ _ _ => rfl

end RelationMemo

namespace Session

variable {κ α : Type} {s : Session κ α}

namespace SparesRelations

theorem field? (answer : Json) (key : String) :
    SparesRelations (Session.field? answer key : Work κ α (Option Json)) := by
  cases answer with
  | object fields => exact ret _
  | _ => exact ofExcept (.error (.data .notObject))

theorem requireField (answer : Json) (key : String) :
    SparesRelations (Session.requireField answer key : Work κ α Json) := by
  cases answer with
  | object fields =>
    rw [Session.requireField]
    cases Assoc.get? fields key with
    | some value => exact ret value
    | none => exact ofExcept (.error (.data (.missing key)))
  | _ => exact ofExcept (.error (.data .notIndexed))

theorem sendNew (b : Batch) : SparesRelations (Session.sendNew b : Work κ α Record) :=
  (ofExcept _).bind fun _ => (ofExcept _).bind fun _ => (send _).bind fun answer => (ofExcept _).bind fun _ =>
    (requireField answer _).bind fun _ => (field? answer _).bind fun _ => (field? answer _).bind fun _ =>
    ret _

theorem keepNew (className : String) (r : Record) : SparesRelations (Session.keepNew className r : Work κ α Unit) := by
  refine (store _ _).bind fun ref => ?_
  cases ref with
  | none => exact ret _
  | some ref => exact serve _

theorem create (b : Batch) : SparesRelations (Session.create b : Work κ α Record) :=
  (sendNew b).bind fun r => (keepNew b.className r).bind fun _ => ret r

end SparesRelations

/-- A body tells of the operations that are sent. An update brings all relation writes of its batch into the loaded
rolls, so that these come to what was sent exactly when the writes that were not sent make no difference to them.
Creating an object brings none, so that they come to what was sent exactly when it makes no difference to them. -/
theorem reached_sent_iff (hApart : s.relations.Apart) :
    (∀ (b : Batch) (body : Fields Json), b.compose = .ok body → ∀ key content,
      Assoc.get? body key = some content ↔ ∃ o ∈ b.sent.operations, o.key = key ∧ o.wire = .ok content) ∧
    (∀ (b : Batch) (ws sent : List LinkWrite) (found : Option Record) (t : Session κ α),
      b.Writes ws → b.sent.Writes sent → Runs (update b) s (.ok found) t →
        s.relations.Reached ws t.relations ∧ (s.relations.Reached sent t.relations ↔
          ∀ (roll : Roll) (r : Relation), s.relations.listed? roll.cacheKey = some r →
            ∀ id, (roll.link id).after ws (r.has id) = (roll.link id).after sent (r.has id))) ∧
    (∀ (b : Batch) (id : String) (sent : List LinkWrite) (record : Record) (t : Session κ α),
      Runs (create b) s (.ok record) t → record.objectId? = some id →
      Batch.Writes { b.sent with objectId := .string id } sent →
        t.relations = s.relations ∧ (s.relations.Reached sent t.relations ↔
          ∀ (roll : Roll) (r : Relation), s.relations.listed? roll.cacheKey = some r →
            ∀ id, r.has id = (roll.link id).after sent (r.has id))) := by
  refine ⟨fun b body => Batch.get?_compose_sent, ?_, ?_⟩
  · intro b ws sent found t hWrites _ hRun
    have hFollows : s.relations.Follows ws t.relations := by
      obtain ⟨-, hRelations⟩ | ⟨⟨e, hError⟩, -⟩ := relations_of_update hRun
      · rw [hRelations]
        exact follows_operations hApart hWrites
      · cases hError
    exact ⟨hFollows.reached, hFollows.reached_iff⟩
  · intro b id sent record t hRun _ _
    have hSame := SparesRelations.create b _ _ _ hRun
    refine ⟨hSame, ?_⟩
    rw [hSame]
    exact (RelationMemo.Follows.refl hApart).reached_iff

/-- In one update the user comes to like one note and not to like the other; only the second change is sent. -/
def turnAround : Batch where
  className := "_User"
  objectId := .string "u1"
  operations := [unlikeFirst.operation, likeOther.operation]

theorem reached_sent_iff_turnAround :
    oneLiked.relations.Apart ∧ ∃ found t, Runs (update turnAround) oneLiked (.ok found) t ∧
      turnAround.Writes [unlikeFirst, likeOther] ∧ turnAround.sent.Writes [likeOther] ∧
      oneLiked.relations.Reached [unlikeFirst, likeOther] t.relations ∧
      ¬ oneLiked.relations.Reached [likeOther] t.relations := by
  have hApart : oneLiked.relations.Apart := ⟨by decide, by decide⟩
  have hWrites : turnAround.Writes [unlikeFirst, likeOther] :=
    ⟨rfl, fun w hw => by rcases List.mem_pair.mp hw with rfl | rfl <;> exact ⟨rfl, rfl⟩⟩
  have hSent : turnAround.sent.Writes [likeOther] :=
    ⟨rfl, fun w hw => by cases List.mem_singleton.mp hw; exact ⟨rfl, rfl⟩⟩
  have hRun : ∃ found t, Runs (update turnAround) oneLiked (.ok found) t := ⟨_, _, rfl⟩
  obtain ⟨found, t, hRun⟩ := hRun
  obtain ⟨hAll, hIff⟩ := (reached_sent_iff hApart).2.1 _ _ _ _ _ hWrites hSent hRun
  refine ⟨hApart, found, t, hRun, hWrites, hSent, hAll, fun hReached => ?_⟩
  -- the first note was liked, and the server is not told that it is no longer
  have hSame := hIff.mp hReached (.members likes "u1") _ rfl "a"
  exact absurd hSame (by decide +kernel)

/-- A new user, who likes the other note. -/
def newcomer : Batch where
  className := "_User"
  operations := [.addRelation "likes" (.ofNames "Note" "b")]

def likeFromNewcomer : LinkWrite := ⟨⟨likes, "u2", "b"⟩, true, []⟩

/-- The server will take the next object as `u2`. -/
def welcoming : Session String Unit :=
  { oneLiked with server := [fun _ => .ok (.object [("objectId", .string "u2")])] }

/-- The new user is none of the loaded owners of the note that he likes. -/
theorem not_reached_newcomer :
    ∃ record t, Runs (create newcomer) welcoming (.ok record) t ∧ record.objectId? = some "u2" ∧
      Batch.Writes { newcomer.sent with objectId := .string "u2" } [likeFromNewcomer] ∧
      ¬ welcoming.relations.Reached [likeFromNewcomer] t.relations := by
  have hWrites : Batch.Writes { newcomer.sent with objectId := .string "u2" } [likeFromNewcomer] :=
    ⟨rfl, fun w hw => by cases List.mem_singleton.mp hw; exact ⟨rfl, rfl⟩⟩
  refine ⟨_, _, rfl, rfl, hWrites, fun hReached => ?_⟩
  obtain ⟨owners, hOwners, hHas⟩ := hReached (.owners likes "b") {} rfl
  cases hOwners
  exact absurd (hHas "u2") (by decide)

end Session

end RecordCache
