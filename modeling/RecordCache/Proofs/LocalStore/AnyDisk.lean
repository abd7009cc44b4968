import RecordCache.Fetch.Queue
import RecordCache.Proofs.Constraint.Failures
import RecordCache.Proofs.LocalStore.Faults

/-!
# Writing on whatever disk

Whichever accesses fail, none of the operations of a store lets a failure of the cache through, also where it fails
while it makes up for another failure. What writing a record, replacing the snapshot and removing a record come to
is the same on every disk, as long as the store can tell the age of a blob.
-/

namespace RecordCache

namespace LocalStore

variable {α β : Type} {s : LocalStore}

/-! ### Nothing is let through -/

/-- On no disk does the work fail over the cache. -/
abbrev Shielded (work : Serving α) : Prop := GoesOn (fun _ => True) work

namespace Shielded

theorem whenServed (work : Serving α) : Shielded (LocalStore.whenServed work) := by
  intro d r d' _ hRun
  obtain ⟨first, d₁, hWork⟩ := Runs.exists_run work d
  obtain ⟨rfl, -⟩ := hRun.unique (runs_whenServed hWork)
  refine ⟨trivial, ?_⟩
  cases first with
  | ok a => exact .ret _
  | error e =>
    rw [served]
    split
    · exact .ret none
    · next hCache => exact .fail (Bool.eq_false_iff.mpr hCache)

theorem discardBlob (s : LocalStore) (key : Json) : Shielded (s.discardBlob key) := (whenServed _).map _

theorem saveIndex (s : LocalStore) (ids : List Json) : Shielded (s.saveIndex ids) := (whenServed _).map _

theorem extendIndex (s : LocalStore) (listed : List Json) (ids : Json) : Shielded (s.extendIndex listed ids) :=
  .bind (.of_runs fun d _ => ⟨_, d, rfl, trivial, FailsElsewhere.ofData ids.iterate⟩) fun _ => saveIndex s _

theorem enlist (s : LocalStore) (ids : Json) : Shielded (s.enlist ids) := by
  refine (whenServed s.listIds).bind fun listed => ?_
  cases listed with
  | none => exact .ret _
  | some listed => exact extendIndex s _ ids

theorem persist (s : LocalStore) (r : Record) (listed : Bool) : Shielded (s.persist r listed) := by
  refine (whenServed (s.saveRecord r)).bind fun written => ?_
  split
  · exact enlist s _
  · exact .ret _

theorem remove (s : LocalStore) (id : Json) : Shielded (s.remove id) := by
  refine (discardBlob s id).bind fun _ => (whenServed s.listIds).bind fun listed => ?_
  cases listed with
  | none => exact .ret _
  | some listed =>
    cases id.string? with
    | none => exact .ret _
    | some id =>
      dsimp only
      split
      · exact saveIndex s _
      · exact .ret _

theorem swap (s : LocalStore) (records : List Record) : Shielded (s.swap records) := by
  refine (whenServed (records.forM s.saveRecord)).bind fun written => ?_
  cases written with
  | some _ => exact extendIndex s [] _
  | none => exact discardBlob s indexKey

end Shielded

/-! ### What does not depend on the disk -/

/-- On every disk the work comes to this, whatever it leaves there. -/
def ComesTo (work : Serving α) (r : Except Error α) : Prop := ∀ d, ∃ d', Runs work d r d'

namespace ComesTo

theorem ret (a : α) : ComesTo (pure a) (.ok a) := fun d => ⟨d, .ret a d⟩

/-- What comes first returns, with something or other; what follows makes the same of it all. -/
theorem after {first : Serving α} {next : α → Serving β} {r : Except Error β}
    (h : ∀ d, ∃ a d', Runs first d (.ok a) d') (hNext : ∀ a, ComesTo (next a) r) : ComesTo (first >>= next) r := by
  intro d
  obtain ⟨a, d₁, hFirst⟩ := h d
  exact Runs.exists_bind hFirst (hNext a d₁)

theorem discarded {work : Serving α} (h : FailsSoftly work) : ComesTo (discard (whenServed work)) (.ok ()) := by
  intro d
  obtain ⟨found, d', hServed⟩ := h.exists_whenServed d
  exact ⟨d', hServed.map _⟩

theorem discardBlob (s : LocalStore) (key : Json) : ComesTo (s.discardBlob key) (.ok ()) :=
  discarded (.access key _)

theorem saveIndex {ids : List Json} (hWritable : ∀ id ∈ ids, id.isWritable = true) :
    ComesTo (s.saveIndex ids) (.ok ()) := discarded (.save _ ((Json.allWritable_iff ids).mpr hWritable))

theorem extendIndex {listed ids : List Json} (hListed : ∀ id ∈ listed, id.isWritable = true)
    (hIds : ∀ id ∈ ids, id.isWritable = true) : ComesTo (s.extendIndex listed (.array ids)) (.ok ()) := by
  have hAdded : ∀ id ∈ ids.foldl addId listed, id.isWritable = true := by
    induction ids generalizing listed with
    | nil => exact hListed
    | cons id rest ih =>
      refine ih (fun other hOther => ?_) fun other hOther => hIds other (List.mem_cons_of_mem id hOther)
      rw [addId] at hOther
      split at hOther
      · exact hListed other hOther
      · rcases List.mem_append.mp hOther with hOld | hNew
        · exact hListed other hOld
        · exact List.mem_singleton.mp hNew ▸ hIds id List.mem_cons_self
  exact fun d => Runs.exists_bind (.ret ids d) (saveIndex hAdded d)

theorem isWritable_idJson (r : Record) : (idJson r).isWritable = true := by
  rw [idJson]
  cases r.objectId? <;> rfl

theorem isWritable_of_mem_strings {texts : List String} : ∀ id ∈ texts.map Json.string, id.isWritable = true := by
  intro id hId
  obtain ⟨text, -, rfl⟩ := List.mem_map.mp hId
  rfl

theorem enlist (hAge : s.TellsAge) {ids : List Json} (hIds : ∀ id ∈ ids, id.isWritable = true) :
    ComesTo (s.enlist (.array ids)) (.ok ()) := by
  refine after (FailsSoftly.load hAge _ _ _).exists_whenServed fun listed => ?_
  cases listed with
  | none => exact ret ()
  | some listed => exact extendIndex isWritable_of_mem_strings hIds

/-- A record that no document can hold is refused before the disk is asked. -/
theorem persist (hAge : s.TellsAge) (r : Record) (listed : Bool) :
    ComesTo (s.persist r listed) (if r.json.isWritable then .ok () else .error (.data .notWritable)) := by
  split
  · next hWritable =>
    refine after (FailsSoftly.saveRecord hWritable).exists_whenServed fun written => ?_
    split
    · exact enlist hAge (List.forall_mem_singleton.mpr (isWritable_idJson r))
    · exact ret ()
  · next hWritable =>
    intro d
    have hRefused : Runs (s.saveRecord r) d (.error (.data .notWritable)) d := by
      rw [saveRecord, save, Bool.eq_false_iff.mpr hWritable]
      exact .fail _ _
    exact ⟨d, (runs_whenServed hRefused).bind_fail⟩

theorem remove (hAge : s.TellsAge) (id : Json) : ComesTo (s.remove id) (.ok ()) := by
  refine after (fun d => ⟨(), discardBlob s id d⟩) fun _ =>
    after (FailsSoftly.load hAge _ _ _).exists_whenServed fun listed => ?_
  cases listed with
  | none => exact ret ()
  | some listed =>
    cases id.string? with
    | none => exact ret ()
    | some id =>
      dsimp only
      split
      · exact saveIndex isWritable_of_mem_strings
      · exact ret ()

theorem swap {records : List Record} (hWritable : ∀ r ∈ records, r.json.isWritable = true) :
    ComesTo (s.swap records) (.ok ()) := by
  have hSaved : FailsSoftly (records.forM s.saveRecord) := .forM fun r hr => .saveRecord (hWritable r hr)
  refine after hSaved.exists_whenServed fun written => ?_
  cases written with
  | some _ =>
    refine extendIndex (fun _ h => nomatch h) fun id hId => ?_
    obtain ⟨r, -, rfl⟩ := List.mem_map.mp hId
    exact isWritable_idJson r
  | none => exact discardBlob s indexKey

end ComesTo

end LocalStore

namespace FetchQueue

open LocalStore (Shielded)

variable {κ : Type}

theorem shielded_lookUp (q : FetchQueue κ) (id : Json) : Shielded (q.lookUp id) := by
  rw [lookUp]
  cases q.store with
  | none => exact .ret none
  | some s => exact .whenServed _

theorem shielded_keep (q : FetchQueue κ) (records : List Record) : Shielded (q.keep records) := by
  rw [keep]
  cases q.store with
  | none => exact .ret ()
  | some s => exact .forM (fun r => Shielded.persist s r false) records

/-- A request gets the failure of its batch, or a record, or is told that there is none. -/
theorem failsElsewhere_outcome (q : FetchQueue κ) {fetched : Except Error (List Record)} (h : FailsElsewhere fetched)
    (id : Json) : FailsElsewhere (q.outcome fetched id) := by
  refine h.bind fun records => ?_
  cases records.reverse.find? fun r => (LocalStore.idJson r).same id with
  | some r => exact .ret r
  | none => exact .fail rfl

end FetchQueue

end RecordCache
