import RecordCache.Proofs.Client.Turns
import RecordCache.Proofs.Relation.Links

/-!
# The two directions of a relation

A link stands on the roll of its owner and on the roll of its member, and where both are loaded they agree about
it. Adding and removing members, and updates that the server takes, change both rolls alike; an update that fails
changes neither.
-/

namespace RecordCache

/-! ### What writes do to the memo -/

namespace RelationMemo

variable {κ : Type} {m m' m'' : RelationMemo κ} {ws ws' : List LinkWrite}

/-- Wherever both directions of a relation are loaded, an owner has a member in the one when the member has the
owner in the other. -/
def Consistent (m : RelationMemo κ) : Prop :=
  ∀ (link : Link) (r r' : Relation), m.listed? link.membersRoll.cacheKey = some r →
    m.listed? link.ownersRoll.cacheKey = some r' → r.has link.member = r'.has link.owner

/-- From the one memo to the other, every loaded roll has followed the writes, and nothing else has changed. -/
structure Follows (ws : List LinkWrite) (m m' : RelationMemo κ) : Prop where
  apart : m'.Apart
  rolls : ∀ roll : Roll, m'.listed? roll.cacheKey = (m.listed? roll.cacheKey).map (roll.followAll ws)
  others : ∀ key, (∀ roll : Roll, roll.cacheKey ≠ key) → m'.listed? key = m.listed? key

theorem Follows.refl (h : m.Apart) : Follows [] m m where
  apart := h
  rolls _ := Option.map_id'.symm
  others _ _ := rfl

theorem Follows.trans (h : Follows ws m m') (h' : Follows ws' m' m'') : Follows (ws ++ ws') m m'' where
  apart := h'.apart
  rolls roll := by
    rw [h'.rolls, h.rolls, Option.map_map]
    congr 1
    funext r
    exact List.foldl_append.symm
  others key hKey := (h'.others key hKey).trans (h.others key hKey)

theorem Follows.apply (h : Follows ws m m') (w : LinkWrite) : Follows (ws ++ [w]) m (w.apply m') :=
  h.trans
    { apart := h.apart.apply w
      rolls := listed?_apply h.apart w
      others := fun _ => listed?_apply_of_ne h.apart w }

theorem Follows.consistent (h : Follows ws m m') (hConsistent : m.Consistent) : m'.Consistent := by
  intro link r r' hMembers hOwners
  rw [h.rolls] at hMembers hOwners
  obtain ⟨before, hBefore, rfl⟩ := Option.map_eq_some_iff.mp hMembers
  obtain ⟨before', hBefore', rfl⟩ := Option.map_eq_some_iff.mp hOwners
  rw [Roll.has_followAll, Roll.has_followAll, hConsistent link before before' hBefore hBefore']
  rfl

end RelationMemo

/-! ### Updates -/

namespace Operation

def isRelationChange : Operation → Bool
  | .addRelation _ _ => true
  | .removeRelation _ _ => true
  | _ => false

end Operation

def LinkWrite.operation (w : LinkWrite) : Operation :=
  if w.adds then .addRelation w.link.kind.key w.member else .removeRelation w.link.kind.key w.member

/-- The changes of relations that a batch sends, in their order. -/
structure Batch.Writes (b : Batch) (ws : List LinkWrite) : Prop where
  operations : b.operations.filter Operation.isRelationChange = ws.map LinkWrite.operation
  owners : ∀ w ∈ ws, w.link.kind.ownerClass = b.className ∧ b.objectId = .string w.link.owner

namespace Session

variable {κ α β γ : Type} {s t : Session κ α} {b : Batch} {ws : List LinkWrite}

theorem updateRelation_operation (w : LinkWrite) (m : RelationMemo κ) :
    updateRelation w.owner m w.operation = w.apply m := by
  rw [LinkWrite.operation, LinkWrite.apply]
  cases w.adds <;> rfl

theorem foldl_updateRelation (owner : Ref) (operations : List Operation) (m : RelationMemo κ) :
    operations.foldl (updateRelation owner) m =
      (operations.filter Operation.isRelationChange).foldl (updateRelation owner) m := by
  induction operations generalizing m with
  | nil => rfl
  | cons o rest ih =>
    rw [List.foldl_cons, ih]
    cases o <;> rfl

theorem follows_operations {m : RelationMemo κ} (h : m.Apart) (hWrites : b.Writes ws) :
    m.Follows ws (b.operations.foldl (updateRelation (refOf b b.objectId)) m) := by
  rw [foldl_updateRelation, hWrites.operations]
  have hOwner : ∀ w ∈ ws, refOf b b.objectId = w.owner := by
    intro w hw
    obtain ⟨hClass, hId⟩ := hWrites.owners w hw
    rw [refOf, hId, ← hClass]
    rfl
  clear hWrites
  induction ws generalizing m with
  | nil => exact .refl h
  | cons w rest ih =>
    rw [List.map_cons, List.foldl_cons, hOwner w List.mem_cons_self, updateRelation_operation,
      ← hOwner w List.mem_cons_self]
    have hFirst : m.Follows [w] (w.apply m) := (RelationMemo.Follows.refl h).apply w
    exact hFirst.trans (ih hFirst.apart fun w' hw' => hOwner w' (List.mem_cons_of_mem _ hw'))

/-- Whatever the work comes to, it leaves the memoized relations alone. -/
def SparesRelations (work : Work κ α β) : Prop := Moves (fun s t => t.relations = s.relations) work

namespace SparesRelations

theorem ret (b : β) : SparesRelations (pure b : Work κ α β) :=
  Moves.of_runs fun s => ⟨_, s, .ret b s, rfl⟩

theorem ofExcept (r : Except Error β) : SparesRelations (Session.ofExcept r : Work κ α β) :=
  Moves.of_runs fun s => ⟨r, s, runs_ofExcept r s, rfl⟩

theorem bind {work : Work κ α γ} {next : γ → Work κ α β} (h : SparesRelations work)
    (hNext : ∀ c, SparesRelations (next c)) : SparesRelations (work >>= next) :=
  Moves.bind (fun _ _ _ h h' => h'.trans h) h hNext

theorem send (call : Call) : SparesRelations (Session.send call : Work κ α Json) :=
  Moves.of_runs fun s => ⟨_, _, runs_send_reply call s, rfl⟩

theorem serve (serving : LocalStore.Serving β) : SparesRelations (Session.serve serving : Work κ α β) := by
  intro s result t hRun
  obtain ⟨disk, -, rfl⟩ := exists_of_serve hRun
  rfl

theorem store (className : String) (window : Json) :
    SparesRelations (Session.store className window : Work κ α (Option StoreRef)) :=
  Moves.of_runs fun s => ⟨_, _, runs_store className window s, rfl⟩

theorem updateCached (b : Batch) (id answer : Json) :
    SparesRelations (Session.updateCached b id answer : Work κ α (Option Record)) := by
  refine (store _ _).bind fun ref => ?_
  cases ref with
  | none => exact ret none
  | some ref =>
    refine (serve _).bind fun cached => ?_
    cases cached with
    | none => exact ret none
    | some cached => exact (ofExcept _).bind fun raw => (ofExcept _).bind fun time => (serve _).bind fun _ => ret _

/-- When it fails, so does all of the work, and the relations are as they were; else the rest finds them so. -/
theorem runs_bind {work : Work κ α γ} {next : γ → Work κ α β} (h : SparesRelations work) {result : Except Error β}
    (hRun : Runs (work >>= next) s result t) :
    (∃ c u, Runs work s (.ok c) u ∧ u.relations = s.relations ∧ Runs (next c) u result t) ∨
      (∃ e, result = .error e) ∧ t.relations = s.relations := by
  obtain ⟨c, u, hWork, hNext⟩ | ⟨e, hError, hWork⟩ := Runs.bind_iff.mp hRun
  · exact .inl ⟨c, u, hWork, h _ _ _ hWork, hNext⟩
  · exact .inr ⟨⟨e, hError⟩, h _ _ _ hWork⟩

end SparesRelations

theorem relations_of_update {result : Except Error (Option Record)} (h : Runs (update b) s result t) :
    (∃ found, result = .ok found) ∧ t.relations = b.operations.foldl (updateRelation (refOf b b.objectId)) s.relations ∨
      (∃ e, result = .error e) ∧ t.relations = s.relations := by
  obtain ⟨id, s₁, hId, h₁, hRun⟩ | hFailed := SparesRelations.runs_bind (.ofExcept _) h
  swap
  · exact .inr hFailed
  obtain ⟨body, s₂, -, h₂, hRun⟩ | ⟨hError, hSame⟩ := SparesRelations.runs_bind (.ofExcept _) hRun
  swap
  · exact .inr ⟨hError, hSame.trans h₁⟩
  obtain ⟨answer, s₃, -, h₃, hRun⟩ | ⟨hError, hSame⟩ := SparesRelations.runs_bind (.send _) hRun
  swap
  · exact .inr ⟨hError, hSame.trans (h₂.trans h₁)⟩
  obtain ⟨record, s₄, -, h₄, hRun⟩ | ⟨hError, hSame⟩ := SparesRelations.runs_bind (.updateCached _ _ _) hRun
  swap
  · exact .inr ⟨hError, hSame.trans (h₃.trans (h₂.trans h₁))⟩
  obtain ⟨rfl, rfl⟩ := hRun.unique (.bind (.alter _ _) (.ret record _))
  have hExisting : id = b.objectId := by
    have hOk := (hId.unique (runs_ofExcept _ _)).1
    rw [Batch.existing] at hOk
    split at hOk <;> cases hOk
    rfl
  refine .inl ⟨⟨record, rfl⟩, ?_⟩
  rw [← h₁, ← h₂, ← h₃, ← h₄, hExisting]

/-- A sequence of changes of relations: of members in the memo, and by updates, whether the server takes them. The
writes are those that reach the memo. -/
inductive Edits : Session κ α → List LinkWrite → Session κ α → Prop
  | nil {s : Session κ α} : Edits s [] s
  | member {s t : Session κ α} {ws : List LinkWrite} (h : Edits s ws t) (w : LinkWrite) :
      Edits s (ws ++ [w]) { t with relations := w.apply t.relations }
  | updated {s t u : Session κ α} {ws ws' : List LinkWrite} {b : Batch} {found : Option Record} (h : Edits s ws t)
      (hWrites : b.Writes ws') (hRun : Runs (update b) t (.ok found) u) : Edits s (ws ++ ws') u
  | failed {s t u : Session κ α} {ws : List LinkWrite} {b : Batch} {e : Error} (h : Edits s ws t)
      (hRun : Runs (update b) t (.error e) u) : Edits s ws u

theorem Edits.follows (h : Edits s ws t) (hApart : s.relations.Apart) : s.relations.Follows ws t.relations := by
  induction h with
  | nil => exact .refl hApart
  | member _ w ih => exact ih.apply w
  | updated _ hWrites hRun ih =>
    obtain ⟨-, hRelations⟩ | ⟨⟨e, hError⟩, -⟩ := relations_of_update hRun
    · rw [hRelations]
      exact ih.trans (follows_operations ih.apart hWrites)
    · cases hError
  | failed _ hRun ih =>
    obtain ⟨⟨found, hOk⟩, -⟩ | ⟨-, hRelations⟩ := relations_of_update hRun
    · cases hOk
    · rw [hRelations]
      exact ih

/-- Adding and removing members keeps the directions of the relations consistent: every loaded roll has the members
that the same changes make of it as a set, and what is no roll of a link that was written has the members it had. -/
theorem consistent_of_edits (hApart : s.relations.Apart) (hConsistent : s.relations.Consistent)
    (h : Edits s ws t) :
    t.relations.Consistent ∧
      (∀ (roll : Roll) (r : Relation), s.relations.listed? roll.cacheKey = some r →
        ∃ r', t.relations.listed? roll.cacheKey = some r' ∧
          ∀ id, r'.has id = (roll.link id).after ws (r.has id)) ∧
      (∀ roll : Roll, s.relations.listed? roll.cacheKey = none → t.relations.listed? roll.cacheKey = none) ∧
      (∀ roll : Roll, (∀ w ∈ ws, roll ≠ w.link.membersRoll ∧ roll ≠ w.link.ownersRoll) →
        t.relations.listed? roll.cacheKey = s.relations.listed? roll.cacheKey) ∧
      ∀ key, (∀ roll : Roll, roll.cacheKey ≠ key) → t.relations.listed? key = s.relations.listed? key := by
  have hFollows := h.follows hApart
  refine ⟨hFollows.consistent hConsistent, fun roll r hBefore => ?_, fun roll hBefore => ?_, fun roll hAside => ?_,
    hFollows.others⟩
  · rw [hFollows.rolls, hBefore]
    exact ⟨_, rfl, roll.has_followAll ws r⟩
  · rw [hFollows.rolls, hBefore]
    rfl
  · rw [hFollows.rolls]
    cases s.relations.listed? roll.cacheKey with
    | none => rfl
    | some r => rw [Option.map_some, roll.followAll_of_aside hAside]

def likes : RelationKind := ⟨"likes", "_User", "Note", rfl⟩

/-- A user likes one note, and another one is known to be liked by nobody; the next update is taken. -/
def oneLiked : Session String Unit where
  relations :=
    { index := [((Roll.members likes "u1").cacheKey, 0), ((Roll.owners likes "b").cacheKey, 1)]
      loads := [{ relation := some (.ofList [.ofNames "Note" "a"]) }, { relation := some {} }] }
  server := [fun _ => .ok (.object [])]
  app := ()

/-- The user comes to like the other one, -/
def likeOther : LinkWrite := ⟨⟨likes, "u1", "b"⟩, true, []⟩

/-- and not to like the first one any more. -/
def unlikeFirst : LinkWrite := ⟨⟨likes, "u1", "a"⟩, false, []⟩

def unlike : Batch where
  className := "_User"
  objectId := .string "u1"
  operations := [unlikeFirst.operation]

theorem consistent_of_edits_likeOther :
    oneLiked.relations.Apart ∧ oneLiked.relations.Consistent ∧ ∃ t, Edits oneLiked [likeOther, unlikeFirst] t ∧
      t.relations.Consistent ∧
      (∃ r, t.relations.listed? (Roll.members likes "u1").cacheKey = some r ∧ r.has "b" = true ∧ r.has "a" = false) ∧
      ∃ r, t.relations.listed? (Roll.owners likes "b").cacheKey = some r ∧ r.has "u1" = true := by
  have hApart : oneLiked.relations.Apart := ⟨by decide, by decide⟩
  have hConsistent : oneLiked.relations.Consistent := by
    intro link r r' hMembers hOwners
    have hKeys (roll : Roll) (r : Relation) (h : oneLiked.relations.listed? roll.cacheKey = some r) :
        roll = .members likes "u1" ∧ r = .ofList [.ofNames "Note" "a"] ∨ roll = .owners likes "b" ∧ r = {} := by
      rw [RelationMemo.listed?_eq] at h
      obtain ⟨load, hIndex, hLoad⟩ := Option.bind_eq_some_iff.mp h
      rcases List.mem_pair.mp (Assoc.mem_of_get? hIndex) with hEntry | hEntry
      · obtain ⟨hKey, rfl⟩ := Prod.mk.inj hEntry
        exact .inl ⟨Roll.cacheKey_injective hKey, (Option.some.inj hLoad).symm⟩
      · obtain ⟨hKey, rfl⟩ := Prod.mk.inj hEntry
        exact .inr ⟨Roll.cacheKey_injective hKey, (Option.some.inj hLoad).symm⟩
    obtain ⟨hRoll, rfl⟩ | ⟨hRoll, -⟩ := hKeys _ _ hMembers
    · obtain ⟨hRoll', -⟩ | ⟨hRoll', rfl⟩ := hKeys _ _ hOwners
      · cases hRoll'
      · obtain ⟨kind, owner, member⟩ := link
        cases hRoll
        cases hRoll'
        decide +kernel
    · cases hRoll
  have hEdits : ∃ t, Edits oneLiked [likeOther, unlikeFirst] t := by
    have hWrites : unlike.Writes [unlikeFirst] := ⟨rfl, fun w hw => by simp_all [unlike, unlikeFirst, likes]⟩
    exact ⟨_, .updated (.member .nil likeOther) hWrites rfl⟩
  obtain ⟨t, hRun⟩ := hEdits
  obtain ⟨hAfter, hRolls, -, -⟩ := consistent_of_edits hApart hConsistent hRun
  obtain ⟨members, hMembers, hHas⟩ := hRolls (.members likes "u1") _ rfl
  obtain ⟨owners, hOwners, hHas'⟩ := hRolls (.owners likes "b") _ rfl
  refine ⟨hApart, hConsistent, t, hRun, hAfter, ⟨members, hMembers, ?_, ?_⟩, owners, hOwners, ?_⟩
  · rw [hHas]
    decide
  · rw [hHas]
    decide
  · rw [hHas']
    decide

end Session

end RecordCache
