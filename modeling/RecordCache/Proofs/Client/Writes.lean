import RecordCache.Proofs.Client.Reads

/-!
# What writes do to a session

Like queries, writes are put together from few kinds of steps. Creating and deleting an object only write to the
cache; changing one reads it first, and may go on from what it finds.
-/

namespace RecordCache

namespace Batch

theorem failsElsewhere_requireNew (b : Batch) : FailsElsewhere b.requireNew := by
  rw [requireNew]
  split
  · exact .ret ()
  · exact .fail rfl

theorem failsElsewhere_existing (b : Batch) (action : String) : FailsElsewhere (b.existing action) := by
  rw [existing]
  split
  · exact .fail rfl
  · exact .ret _

end Batch

namespace Session

variable {κ α β : Type}

/-- The steps of creating and deleting do so, and so does what is put together from work that does. Something may be
known of the store of a class. -/
structure Writes (Q : (β : Type) → Work κ α β → Prop) (Known : LocalStore → Prop) : Prop extends Asks Q where
  ownStore : ∀ {β : Type} (className : String) {next : Option StoreRef → Work κ α β}, Q β (next none) →
    (∀ ref, Known ref.store → Q β (next (some ref))) → Q β (ownStore className >>= next)
  persist : ∀ {store : LocalStore}, Known store → ∀ r listed, Q Unit (serve (store.persist r listed))
  remove : ∀ {store : LocalStore}, Known store → ∀ id, Q Unit (serve (store.remove id))
  relate : ∀ f : RelationMemo κ → RelationMemo κ, Q PUnit (modify fun s => { s with relations := f s.relations })

/-- The steps of changing an object do so as well. -/
structure Rewrites (Q : (β : Type) → Work κ α β → Prop) (Known : LocalStore → Prop) : Prop
    extends Writes Q Known where
  found : ∀ {store : LocalStore}, Known store → ∀ id,
    Q (Option Record) (serve (LocalStore.whenServed (store.get id)))

namespace Writes

variable {Q : (β : Type) → Work κ α β → Prop} {Known : LocalStore → Prop} (h : Writes Q Known)
include h

theorem requireField (answer : Json) (key : String) : Q Json (Session.requireField answer key) := by
  rw [Session.requireField.eq_def]
  split
  · split
    · exact h.ret _
    · exact h.fail rfl
  · exact h.fail rfl

theorem sendNew (b : Batch) : Q Record (Session.sendNew b) :=
  h.bind (h.ofExcept b.failsElsewhere_requireNew) fun _ => h.bind (h.ofData _) fun _ =>
    h.bind (h.send _) fun answer => h.bind (h.ofData _) fun _ => h.bind (h.requireField answer _) fun _ =>
    h.bind (h.field? answer _) fun _ => h.bind (h.field? answer _) fun _ => h.ret _

theorem keepNew (className : String) (r : Record) : Q Unit (Session.keepNew className r) :=
  h.ownStore _ (h.ret _) fun _ hRef => h.persist hRef r true

theorem create (b : Batch) : Q Record (Session.create b) :=
  h.bind (h.sendNew b) fun r => h.bind (h.keepNew b.className r) fun _ => h.ret r

theorem delete (b : Batch) : Q Unit (Session.delete b) := by
  refine h.bind (h.ofExcept (b.failsElsewhere_existing _)) fun id => h.bind (h.map _ (h.send _)) fun _ =>
    h.ownStore _ ?_ fun ref hRef => ?_
  · exact h.relate (·.forget (refOf b id))
  · exact h.bind (h.remove hRef id) fun _ => h.relate (·.forget (refOf b id))

end Writes

namespace Rewrites

variable {Q : (β : Type) → Work κ α β → Prop} {Known : LocalStore → Prop} (h : Rewrites Q Known)
include h

theorem updateCached (b : Batch) (id answer : Json) : Q (Option Record) (Session.updateCached b id answer) := by
  refine h.ownStore _ (h.ret none) fun ref hRef => h.bind (h.found hRef id) fun cached => ?_
  cases cached with
  | none => exact h.ret none
  | some cached =>
    exact h.bind (h.ofData _) fun raw => h.bind (h.ofData _) fun time => h.bind (h.persist hRef _ false) fun _ => h.ret _

theorem update (b : Batch) : Q (Option Record) (Session.update b) :=
  h.bind (h.ofExcept (b.failsElsewhere_existing _)) fun id => h.bind (h.ofData _) fun _ =>
    h.bind (h.send _) fun answer => h.bind (h.updateCached b id answer) fun record =>
    h.bind (h.relate fun m => b.operations.foldl (updateRelation (refOf b id)) m) fun _ => h.ret record

end Rewrites

end Session

end RecordCache
