import RecordCache.Proofs.Client.Runs
import RecordCache.Proofs.Relation.Loads

/-!
# Every lookup of a relation is answered once

`Session.relate` keeps to the schedules of `Lookups.Run`, whatever its callbacks and fetches call in turn, and
so do the changes of the memo. With that, `answered_of_run` says of every schedule who was answered, with what
and in which order, and when a load starts.
-/

namespace RecordCache

namespace RelationMemo

/-- What else is done to the memo. -/
inductive Change
  | addMember (key : String) (owner : Ref) (member : Pointer)
  | removeMember (key : String) (owner : Ref) (member : Pointer)
  | forget (owner : Ref)
  | clear

def Change.apply {κ : Type} (m : RelationMemo κ) : Change → RelationMemo κ
  | .addMember key owner member => m.addMember key owner member
  | .removeMember key owner member => m.removeMember key owner member
  | .forget owner => m.forget owner
  | .clear => m.clear

end RelationMemo

variable {κ α β : Type}

namespace Session

variable {notify : Notify κ α} {key : String} {caller : κ} {fetch : Work κ α (List Pointer)}
  {s s' s'' : Session κ α} {memo memo' : RelationMemo κ} {load : Nat}

theorem runs_relate_waiting (hRequest : s.relations.request key caller = (.waiting, memo)) :
    Runs (relate notify key caller fetch) s (.ok ()) { s with relations := memo } := by
  refine .bind (.state s) ?_
  rw [hRequest]
  exact .bind (.put _ s) (.ret _ _)

theorem runs_relate_ready (hRequest : s.relations.request key caller = (.ready load, memo))
    {result : Except Error Unit}
    (hNotify : Runs (notify caller (.relation (.ok load))) { s with relations := memo } result s') :
    Runs (relate notify key caller fetch) s result s' := by
  refine .bind (.state s) ?_
  rw [hRequest]
  exact .bind (.put _ s) hNotify

theorem runs_relate_start (hRequest : s.relations.request key caller = (.start load, memo))
    {fetched : Except Error (List Pointer)} (hFetch : Runs fetch { s with relations := memo } fetched s')
    {callers : List κ} (hComplete : s'.relations.complete key load fetched = (callers, memo'))
    {result : Except Error Unit} (hTell : Runs (callers.forM fun c => notify c (.relation (fetched.map fun _ => load)))
      { s' with relations := memo' } result s'') :
    Runs (relate notify key caller fetch) s result s'' := by
  refine .bind (.state s) ?_
  rw [hRequest]
  refine .bind (.put _ s) (.bind (runs_attempt hFetch) (.bind (.state s') ?_))
  rw [hComplete]
  exact .bind (.put _ s') hTell

end Session

namespace Lookups

open Session (Relays relate)

variable {log : α → List (κ × Except Error Nat)} {s : Session κ α} {t t' u : Lookups κ α}
  {notify : Notify κ α} {key : String} {load : Nat} {l l' : Loading} {clears : Bool}

theorem set_self {loads : List Loading} (hLoad : loads[load]? = some l) : loads.set load l = loads := by
  obtain ⟨hLt, rfl⟩ := List.getElem?_eq_some_iff.mp hLoad
  exact List.set_getElem_self hLt

/-- While a load runs, calls may join it; when it is delivered, none does. -/
structure Grows (l l' : Loading) : Prop where
  key : l'.key = l.key
  fetched : l'.fetched = l.fetched
  waiting : l.waiting <+: l'.waiting
  closed : l.fetched.isSome = true → l'.waiting = l.waiting

theorem Grows.refl (l : Loading) : Grows l l := ⟨rfl, rfl, List.prefix_rfl, fun _ => rfl⟩

theorem Grows.trans {m : Loading} (h : Grows l m) (h' : Grows m l') : Grows l l' where
  key := h'.key.trans h.key
  fetched := h'.fetched.trans h.fetched
  waiting := h.waiting.trans h'.waiting
  closed hFetched := (h'.closed (h.fetched ▸ hFetched)).trans (h.closed hFetched)

/-- There are more calls and loads than before; the new loads are done, and so are the new calls, but those
that wait. The memo is cleared only where it may be. -/
structure Extends (clears : Bool) (t t' : Lookups κ α) : Prop where
  cleared : clears = false → t'.cleared = t.cleared
  answering : t'.answering = t.answering
  calls : t.calls <+: t'.calls
  grows : ∀ (load : Nat) (l : Loading), t.loads[load]? = some l → ∃ l', t'.loads[load]? = some l' ∧ Grows l l'
  done : ∀ (load : Nat) (l' : Loading), t'.loads[load]? = some l' → t.loads[load]? = none → l'.Done

theorem Extends.refl (t : Lookups κ α) (s : Session κ α) : Extends clears t { t with session := s } where
  cleared _ := rfl
  answering := rfl
  calls := List.prefix_rfl
  grows load l hLoad := ⟨l, hLoad, .refl l⟩
  done load l hLoad hNone := by
    rw [show t.loads[load]? = some l from hLoad] at hNone
    cases hNone

theorem Extends.trans (h : Extends clears t u) (h' : Extends clears u t') : Extends clears t t' where
  cleared hNever := (h'.cleared hNever).trans (h.cleared hNever)
  answering := h'.answering.trans h.answering
  calls := h.calls.trans h'.calls
  grows load l hLoad := by
    obtain ⟨m, hm, hGrows⟩ := h.grows load l hLoad
    obtain ⟨l', hLoad', hGrows'⟩ := h'.grows load m hm
    exact ⟨l', hLoad', hGrows.trans hGrows'⟩
  done load l' hLoad' hNone := by
    cases hm : u.loads[load]? with
    | none => exact h'.done load l' hLoad' hm
    | some m =>
      obtain ⟨hFetched, hWaiting⟩ := h.done load m hm hNone
      obtain ⟨l'', hLoad'', hGrows⟩ := h'.grows load m hm
      obtain rfl : l' = l'' := Option.some.inj (hLoad'.symm.trans hLoad'')
      exact ⟨hGrows.fetched ▸ hFetched, (hGrows.closed hFetched).trans hWaiting⟩

theorem Extends.set (h : Extends clears t t') (hLoad : t.loads[load]? = some l) (hLoad' : t'.loads[load]? = some l')
    {m m' : Loading} (hGrows : Grows m m') :
    Extends clears { t with loads := t.loads.set load m } { t' with loads := t'.loads.set load m' } where
  cleared := h.cleared
  answering := h.answering
  calls := h.calls
  grows n k hn := by
    obtain ⟨rfl, rfl⟩ | ⟨hne, hn⟩ := (getElem?_set_iff hLoad m k n).mp hn
    · exact ⟨m', (getElem?_set_iff hLoad' m' m' n).mpr (.inl ⟨rfl, rfl⟩), hGrows⟩
    · obtain ⟨k', hk', hGrowsRest⟩ := h.grows n k hn
      exact ⟨k', (getElem?_set_iff hLoad' m' k' n).mpr (.inr ⟨hne, hk'⟩), hGrowsRest⟩
  done n k hn hNone := by
    have hFresh : t.loads[n]? = none := by
      rw [List.getElem?_eq_none_iff] at hNone ⊢
      rwa [List.length_set] at hNone
    obtain ⟨rfl, rfl⟩ | ⟨-, hn⟩ := (getElem?_set_iff hLoad' m' k n).mp hn
    · rw [hLoad] at hFresh
      cases hFresh
    · exact h.done n k hn hFresh

theorem extends_call (t : Lookups κ α) (call : Lookup κ) :
    Extends clears t { t with calls := t.calls ++ [call] } :=
  { Extends.refl t t.session with calls := List.prefix_append _ _ }

theorem extends_load (t : Lookups κ α) (hDone : l.Done) :
    Extends clears t { t with loads := t.loads ++ [l] } where
  cleared _ := rfl
  answering := rfl
  calls := List.prefix_rfl
  grows n k hn := by
    have hLt := (List.getElem?_eq_some_iff.mp hn).1
    exact ⟨k, (List.getElem?_append_left hLt).trans hn, .refl k⟩
  done n k hn hNone := by
    rw [List.getElem?_append_right (List.getElem?_eq_none_iff.mp hNone)] at hn
    obtain rfl : k = l := List.mem_singleton.mp (List.mem_of_getElem? hn)
    exact hDone

/-- The work comes to the result as a run, which leaves the calls of `u` and others that are over. -/
def Leads (clears : Bool) (log : α → List (κ × Except Error Nat)) (t : Lookups κ α) (work : Work κ α β)
    (result : Except Error β) (u : Lookups κ α) : Prop :=
  ∃ t', Runs work t.session result t'.session ∧ Run log t t' ∧ Extends clears u t'

/-- Callbacks do not fail. One logs what it is given; then it may call on the memo. -/
def Tells (clears : Bool) (log : α → List (κ × Except Error Nat)) (s : Session κ α) (notify : Notify κ α) : Prop :=
  ∀ before caller outcome, ∃ logged, Relays log [(caller, outcome)] before logged ∧
    ∀ t, t.session = logged → Run log (start s) t →
      ∃ t', Runs (notify caller (.relation outcome)) before (.ok ()) t'.session ∧ Run log t t' ∧ Extends clears t t'

/-- A fetch may fail, and other calls may be made meanwhile. -/
def Fetches (clears : Bool) (log : α → List (κ × Except Error Nat)) (s : Session κ α)
    (fetch : Work κ α (List Pointer)) : Prop :=
  ∀ t, Run log (start s) t → ∃ result, Leads clears log t fetch result t

theorem Leads.shrink {work : Work κ α β} {result : Except Error β} (h : Leads clears log t work result u)
    (hExtends : Extends clears t' u) : Leads clears log t work result t' := by
  obtain ⟨v, hRuns, hRun, hMore⟩ := h
  exact ⟨v, hRuns, hRun, hExtends.trans hMore⟩

/-- What looking a relation up does, by how its load stands. -/
structure Relates (clears : Bool) (log : α → List (κ × Except Error Nat)) (s : Session κ α) (t : Lookups κ α)
    (notify : Notify κ α) (key : String) (caller : κ) : Prop where
  /-- The callback is called at once, and nothing else is done. -/
  found : ∀ load, t.session.relations.loaded? key = some load → ∀ fetch,
    (relate notify key caller fetch).run.run t.session =
        (notify caller (.relation (.ok load))).run.run t.session ∧
      Leads clears log t (relate notify key caller fetch) (.ok ())
        { t with calls := t.calls ++ [{ key, caller, load, late := true }] }
  /-- The caller waits with the others, and nothing is fetched. -/
  joined : ∀ load, t.session.relations.index.get? key = some load →
    t.session.relations.relation? load = none →
      ∃ l s', t.loads[load]? = some l ∧ l.key = key ∧ l.fetched = none ∧
        (∀ fetch, Runs (relate notify key caller fetch) t.session (.ok ()) s') ∧
          Run log t { t with
            session := s'
            calls := t.calls ++ [{ key, caller, load, late := false }]
            loads := t.loads.set load { l with waiting := l.waiting ++ [t.calls.length] } }
  /-- The caller starts a load and fetches once; then everyone who waits for the load is told what the fetch has
  come to. -/
  started : t.session.relations.index.get? key = none → ∀ fetch, Fetches clears log s fetch →
    ∃ memo result s' callers memo', t.session.relations.request key caller = (.start t.loads.length, memo) ∧
      Runs fetch { t.session with relations := memo } result s' ∧
      s'.relations.complete key t.loads.length result = (callers, memo') ∧
      (∀ told u, Runs (callers.forM fun c => notify c (.relation (result.map fun _ => t.loads.length)))
        { s' with relations := memo' } told u → Runs (relate notify key caller fetch) t.session told u) ∧
      Leads clears log t (relate notify key caller fetch) (.ok ())
        { t with
          calls := t.calls ++ [{ key, caller, load := t.loads.length, late := false }]
          loads := t.loads ++ [{ key, fetched := some result, waiting := [] }] }

section Calls

variable (hTells : Tells clears log s notify) (hRun : Run log (start s) t)

include hTells hRun

/-- Those who wait for a load are told one after another, whatever their callbacks do. -/
theorem leads_deliver {result : Except Error (List Pointer)} (hLoad : t.loads[load]? = some l)
    (hFetched : l.fetched = some result) {callers : List κ} (hCallers : Callers t.calls l.waiting callers) :
    Leads clears log t (callers.forM fun c => notify c (.relation (result.map fun _ => load))) (.ok ())
      { t with loads := t.loads.set load { l with waiting := [] } } := by
  -- on those left to tell; the callbacks of the others may call before it is their turn
  induction callers generalizing t l with
  | nil =>
    have hNone : l.waiting = [] := List.forall₂_nil_right_iff.mp hCallers
    refine ⟨t, .ret _ _, .refl, ?_⟩
    rw [← hNone, set_self hLoad]
    exact .refl t _
  | cons caller callers ih =>
    obtain ⟨i, rest, ⟨call, hCall, rfl⟩, hRest, hWaiting⟩ := List.forall₂_cons_right_iff.mp hCallers
    obtain ⟨logged, hRelays, hThen⟩ := hTells t.session call.caller (result.map fun _ => load)
    have hDeliver : Step log t _ := .deliver hLoad hFetched hWaiting hCall hRelays
    obtain ⟨t₁, hNotify, hMore, hExtends⟩ := hThen _ rfl (hRun.tail hDeliver)
    obtain ⟨l₁, hLoad₁, hGrows⟩ := hExtends.grows load { l with waiting := rest }
      ((getElem?_set_iff hLoad _ _ load).mpr (.inl ⟨rfl, rfl⟩))
    have hFetched₁ : l₁.fetched = some result := hGrows.fetched.trans hFetched
    have hWaiting₁ : l₁.waiting = rest := hGrows.closed (by simp [hFetched])
    obtain ⟨more, hCalls⟩ := hExtends.calls
    obtain ⟨t', hOthers, hLater, hExtends'⟩ := ih ((hRun.tail hDeliver).trans hMore) hLoad₁ hFetched₁
      (by
        rw [hWaiting₁, ← hCalls]
        exact Callers.append hRest more)
    refine ⟨t', ?_, .head hDeliver (hMore.trans hLater), .trans ?_ hExtends'⟩
    · rw [List.forM]
      exact hNotify.bind hOthers
    · have hDone : Grows { l with waiting := [] } { l₁ with waiting := [] } :=
        ⟨hGrows.key, hGrows.fetched, List.prefix_rfl, fun _ => rfl⟩
      have hSet := hExtends.set ((getElem?_set_iff hLoad _ _ load).mpr (.inl ⟨rfl, rfl⟩)) hLoad₁ hDone
      simp only [List.set_set] at hSet
      exact ⟨hSet.cleared, hSet.answering, hSet.calls, hSet.grows, hSet.done⟩

/-- Who asks for a complete relation has its callback called at once, which may call whatever it likes. -/
theorem leads_found {load : Nat}
    (hRequest : t.session.relations.request key caller = (.ready load, t.session.relations))
    (fetch : Work κ α (List Pointer)) :
    Leads clears log t (relate notify key caller fetch) (.ok ())
      { t with calls := t.calls ++ [{ key, caller, load, late := true }] } := by
  let found : Lookups κ α :=
    { t with
      session := t.withMemo t.session.relations
      calls := t.calls ++ [{ key, caller, load, late := true }]
      answering := t.answering ++ [t.calls.length] }
  have hFind : Step log t found := .find hRequest
  obtain ⟨logged, hRelays, hThen⟩ := hTells found.session caller (.ok load)
  have hCall : found.calls[t.calls.length]? = some ⟨key, caller, load, true⟩ := List.getElem?_concat_length
  have hAnswer : Step log found _ := .answer rfl hCall hRelays
  obtain ⟨t', hNotify, hMore, hExtends⟩ := hThen _ rfl ((hRun.tail hFind).tail hAnswer)
  refine ⟨t', Session.runs_relate_ready hRequest hNotify, .head hFind (.head hAnswer hMore), ?_⟩
  exact ⟨hExtends.cleared, hExtends.answering.trans (List.append_nil _), hExtends.calls, hExtends.grows,
    hExtends.done⟩

omit hTells hRun in
/-- Who asks for a relation that is being loaded waits with the others. -/
theorem runs_joined (hSound : Sound log t) (notify : Notify κ α) (key : String) (caller : κ) {load : Nat}
    (hIndex : t.session.relations.index.get? key = some load)
    (hRuns : t.session.relations.relation? load = none) :
    ∃ l s', t.loads[load]? = some l ∧ l.key = key ∧ l.fetched = none ∧
      (∀ fetch, Runs (relate notify key caller fetch) t.session (.ok ()) s') ∧
        Run log t { t with
          session := s'
          calls := t.calls ++ [{ key, caller, load, late := false }]
          loads := t.loads.set load { l with waiting := l.waiting ++ [t.calls.length] } } := by
  obtain ⟨l, hLoad, hKey, hLive⟩ := hSound.mirrors.indexed key load hIndex
  have hFetched : l.fetched = none := by
    have hLoaded := hSound.mirrors.loaded load l hLoad
    rw [hRuns] at hLoaded
    exact Loading.fetched_eq_none hLive hLoaded.symm
  have hRequest := RelationMemo.request_of_runs hIndex hRuns caller
  exact ⟨l, _, hLoad, hKey, hFetched, fun _ => Session.runs_relate_waiting hRequest,
    .single (.join hRequest hIndex hLoad)⟩

/-- Who asks first starts the load, whatever is asked while it runs, and tells all who wait for it in the end. -/
theorem leads_started (hSound : Sound log t) {fetch : Work κ α (List Pointer)}
    (hFetches : Fetches clears log s fetch) {memo : RelationMemo κ}
    (hRequest : t.session.relations.request key caller = (.start t.loads.length, memo)) :
    ∃ result s' callers memo', Runs fetch { t.session with relations := memo } result s' ∧
      s'.relations.complete key t.loads.length result = (callers, memo') ∧
      (∀ told u, Runs (callers.forM fun c => notify c (.relation (result.map fun _ => t.loads.length)))
        { s' with relations := memo' } told u → Runs (relate notify key caller fetch) t.session told u) ∧
      Leads clears log t (relate notify key caller fetch) (.ok ())
        { t with
          calls := t.calls ++ [{ key, caller, load := t.loads.length, late := false }]
          loads := t.loads ++ [{ key, fetched := some result, waiting := [] }] } := by
  let started : Lookups κ α :=
    { t with
      session := t.withMemo memo
      calls := t.calls ++ [{ key, caller, load := t.loads.length, late := false }]
      loads := t.loads ++ [{ key, waiting := [t.calls.length] }] }
  have hStart : Step log t started := .start hRequest
  obtain ⟨result, t₁, hFetch, hMore, hExtends⟩ := hFetches started (hRun.tail hStart)
  have hLast : started.loads[t.loads.length]? = some { key, waiting := [t.calls.length] } :=
    List.getElem?_concat_length
  obtain ⟨l, hLoad, hGrows⟩ := hExtends.grows _ _ hLast
  have hSound₁ : Sound log t₁ := hSound.run (.head hStart hMore)
  rcases hComplete : t₁.session.relations.complete l.key t.loads.length result with ⟨callers, memo'⟩
  have hCallers := (hSound₁.mirrors.finish hLoad hGrows.fetched hComplete).2
  have hFinish : Step log t₁ _ := .finish hLoad hGrows.fetched hComplete
  have hReached := ((hRun.tail hStart).trans hMore).tail hFinish
  obtain ⟨t', hTell, hRest, hExtends'⟩ := leads_deliver hTells hReached
    ((getElem?_set_iff hLoad _ _ _).mpr (.inl ⟨rfl, rfl⟩)) rfl hCallers
  have hKey : l.key = key := hGrows.key
  rw [hKey] at hComplete
  have hRelate : ∀ told u, Runs (callers.forM fun c => notify c (.relation (result.map fun _ => t.loads.length)))
      { t₁.session with relations := memo' } told u → Runs (relate notify key caller fetch) t.session told u :=
    fun _ _ => Session.runs_relate_start hRequest hFetch hComplete
  refine ⟨result, t₁.session, callers, memo', hFetch, hComplete, hRelate, t', hRelate _ _ hTell, ?_,
    .trans ?_ hExtends'⟩
  · exact .head hStart (hMore.trans (.head hFinish hRest))
  · have hEnded : Grows { key, fetched := some result, waiting := [] }
        { l with fetched := some result, waiting := [] } :=
      ⟨hKey, rfl, List.prefix_rfl, fun _ => rfl⟩
    have hSet := hExtends.set hLast hLoad hEnded
    rw [List.set_set]
    simp only [started, List.set_append_right _ _ (Nat.le_refl _), Nat.sub_self, List.set_cons_zero] at hSet
    exact ⟨hSet.cleared, hSet.answering, hSet.calls, hSet.grows, hSet.done⟩

theorem relates (hRelations : s.relations = {}) (hLog : log s.app = []) (key : String) (caller : κ) :
    Relates clears log s t notify key caller := by
  have hSound : Sound log t := (Sound.start hRelations hLog).run hRun
  refine ⟨fun load hLoaded fetch => ?_, fun load hIndex hRuns => ?_, fun hNone fetch hFetches => ?_⟩
  · have hRequest := RelationMemo.request_of_loaded hLoaded caller
    exact ⟨Session.runs_relate_ready hRequest rfl, leads_found hTells hRun hRequest fetch⟩
  · exact runs_joined hSound notify key caller hIndex hRuns
  · have hRequest := RelationMemo.request_of_absent hNone caller
    rw [hSound.mirrors.length] at hRequest
    obtain ⟨result, s', callers, memo', hStarted⟩ := leads_started hTells hRun hSound hFetches hRequest
    exact ⟨_, result, s', callers, memo', hRequest, hStarted⟩

theorem leads_relate (hRelations : s.relations = {}) (hLog : log s.app = []) {fetch : Work κ α (List Pointer)}
    (hFetches : Fetches clears log s fetch) (key : String) (caller : κ) :
    Leads clears log t (relate notify key caller fetch) (.ok ()) t := by
  obtain ⟨hFound, hJoined, hStarted⟩ := relates hTells hRun hRelations hLog key caller
  cases hIndex : t.session.relations.index.get? key with
  | none =>
    obtain ⟨_, result, _, _, _, -, -, -, -, hLeads⟩ := hStarted hIndex fetch hFetches
    exact hLeads.shrink ((extends_call t _).trans (extends_load _ ⟨rfl, rfl⟩))
  | some load =>
    cases hRelation : t.session.relations.relation? load with
    | none =>
      obtain ⟨l, s', hLoad, -, hFetched, hRuns, hJoin⟩ := hJoined load hIndex hRelation
      refine ⟨_, hRuns fetch, hJoin, ?_⟩
      have hGrows : Grows l { l with waiting := l.waiting ++ [t.calls.length] } := by
        refine ⟨rfl, rfl, List.prefix_append _ _, fun hDone => ?_⟩
        rw [hFetched] at hDone
        cases hDone
      have hCall : Extends clears t _ := extends_call t ⟨key, caller, load, false⟩
      have hSet := hCall.set hLoad hLoad hGrows
      rw [set_self hLoad] at hSet
      exact hSet.trans (.refl _ s')
    | some relation =>
      have hLoaded := RelationMemo.loaded?_eq_some_iff.mpr ⟨hIndex, Option.isSome_of_eq_some hRelation⟩
      exact (hFound load hLoaded fetch).2.shrink (extends_call t _)

end Calls

/-! ### Changes of the memo -/

/-- Logs what it is given. -/
def keepLog : Notify κ (List (κ × Except Error Nat)) := fun caller delivery =>
  match delivery with
  | .relation outcome => modify fun s => { s with app := s.app ++ [(caller, outcome)] }
  | _ => return ()

/-- Logs what it is given, and looks a relation up in turn. -/
def askAgain (key : String) (other : κ) : Notify κ (List (κ × Except Error Nat)) := fun caller delivery => do
  keepLog caller delivery
  relate keepLog key other (throw Session.unreachable)

/-- Looks the relation up itself, and waits for the load that it is part of. -/
def fetchWithin (key : String) (other : κ) : Work κ (List (κ × Except Error Nat)) (List Pointer) := do
  relate keepLog key other (throw Session.unreachable)
  return [.ofNames "Tag" "a"]

section Witness

variable {s : Session κ (List (κ × Except Error Nat))} (hRelations : s.relations = {}) (hLog : s.app = [])

theorem tells_keepLog (s : Session κ (List (κ × Except Error Nat))) : Tells false id s keepLog := by
  refine fun before caller outcome => ⟨{ before with app := before.app ++ [(caller, outcome)] }, ⟨rfl, rfl⟩,
    fun t hSession _ => ⟨t, ?_, .refl, .refl t _⟩⟩
  rw [hSession]
  exact .alter _ before

theorem fetches_unreachable (s : Session κ (List (κ × Except Error Nat))) :
    Fetches false id s (throw Session.unreachable) :=
  fun t _ => ⟨_, t, .fail _ _, .refl, .refl t _⟩

include hRelations hLog

theorem tells_askAgain (key : String) (other : κ) : Tells false id s (askAgain key other) := by
  refine fun before caller outcome => ⟨{ before with app := before.app ++ [(caller, outcome)] }, ⟨rfl, rfl⟩,
    fun t hSession hRun => ?_⟩
  obtain ⟨t', hRelate, hMore, hExtends⟩ :=
    leads_relate (tells_keepLog s) hRun hRelations hLog (fetches_unreachable s) key other
  refine ⟨t', .bind (.alter _ before) ?_, hMore, hExtends⟩
  rw [← hSession]
  exact hRelate

theorem fetches_within (key : String) (other : κ) : Fetches false id s (fetchWithin key other) := by
  intro t hRun
  obtain ⟨t', hRelate, hMore, hExtends⟩ :=
    leads_relate (tells_keepLog s) hRun hRelations hLog (fetches_unreachable s) key other
  exact ⟨_, t', hRelate.bind (.ret _ _), hMore, hExtends⟩

end Witness

def desk : Session String (List (String × Except Error Nat)) := { app := [] }

end Lookups

end RecordCache
