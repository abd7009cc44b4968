import RecordCache.Proofs.Client.Coalescing
import RecordCache.Proofs.Population.Calls
import RecordCache.Proofs.Relation.Answers

/-!
# Callbacks that raise

A flush, a load of a relation and a population tell those who wait for it one after another. The first
callback that raises ends the telling, and what is left is told to nobody: each is called once exactly when
at most the last one raises.
-/

namespace RecordCache.Session

variable {κ α β : Type}

/-- What is given to callbacks, one after another, until one raises. -/
def untilRaised (raises : κ → Bool) : List (κ × Delivery) → List (κ × Delivery)
  | [] => []
  | e :: rest => if raises e.1 then [e] else e :: untilRaised raises rest

theorem untilRaised_perm_iff (raises : κ → Bool) (due : List (κ × Delivery)) :
    (untilRaised raises due).Perm due ↔ ∀ e ∈ due.dropLast, raises e.1 = false := by
  induction due with
  | nil => simp [untilRaised]
  | cons e rest ih =>
    cases rest with
    | nil => simp [untilRaised]
    | cons next others =>
      rw [untilRaised, List.dropLast_cons_cons, List.forall_mem_cons, ← ih]
      cases hRaises : raises e.1 with
      | true =>
        have hShort : ¬ [e].Perm (e :: next :: others) := fun hPerm => by simpa using hPerm.length_eq
        simp [hShort]
      | false => simp

/-- A callback that something is due to logs its call before whatever else it does. What it calls in turn may
tell others, and whether it raises in the end is known. -/
structure Logs (log : α → List (κ × Delivery)) (raises : κ → Bool) (due : List (κ × Delivery))
    (notify : Notify κ α) : Prop where
  calls : ∀ e ∈ due, ∀ s r t, Runs (notify e.1 e.2) s r t →
    ∃ more, log t.app = log s.app ++ e :: more ∧ ∀ e' ∈ more, e'.1 ∉ due.map Prod.fst
  outcome : ∀ e ∈ due, ∀ s r t, Runs (notify e.1 e.2) s r t → r.isOk = !raises e.1

variable [DecidableEq κ] {log : α → List (κ × Delivery)} {raises : κ → Bool} {due given given' : List (κ × Delivery)}
  {notify : Notify κ α} {s t u : Session κ α}

/-- Since `s`, those that something is due to were given this. -/
def Told (log : α → List (κ × Delivery)) (due : List (κ × Delivery)) (s t : Session κ α)
    (given : List (κ × Delivery)) : Prop :=
  ∃ more, log t.app = log s.app ++ more ∧ (more.filter fun e => e.1 ∈ due.map Prod.fst) = given

/-- Everyone was called exactly once since `s`, with what is due. -/
def EachOnce (log : α → List (κ × Delivery)) (due : List (κ × Delivery)) (s t : Session κ α) : Prop :=
  ∃ given, Told log due s t given ∧ given.Perm due

/-- From `s₁` on, the work tells callbacks until one raises. They are all called when at most the last one does. -/
def Tells (log : α → List (κ × Delivery)) (raises : κ → Bool) (due : List (κ × Delivery)) (work : Work κ α β)
    (s s₁ : Session κ α) : Prop :=
  ∃ r t, Runs work s r t ∧ Told log due s₁ t (untilRaised raises due) ∧
    (EachOnce log due s₁ t ↔ ∀ e ∈ due.dropLast, raises e.1 = false)

theorem Told.refl (log : α → List (κ × Delivery)) (due : List (κ × Delivery)) (s : Session κ α) :
    Told log due s s [] := ⟨[], (List.append_nil _).symm, rfl⟩

theorem Told.trans (hFirst : Told log due s t given) (hThen : Told log due t u given') :
    Told log due s u (given ++ given') := by
  obtain ⟨more, hLog, rfl⟩ := hFirst
  obtain ⟨more', hLog', rfl⟩ := hThen
  exact ⟨more ++ more', by rw [hLog', hLog, List.append_assoc], List.filter_append _ _⟩

theorem Told.unique (h : Told log due s t given) (h' : Told log due s t given') : given = given' := by
  obtain ⟨more, hLog, rfl⟩ := h
  obtain ⟨more', hLog', rfl⟩ := h'
  rw [List.append_cancel_left (hLog.symm.trans hLog')]

theorem Logs.told (h : Logs log raises due notify) {e : κ × Delivery} (he : e ∈ due) {r : Except Error Unit}
    (hRun : Runs (notify e.1 e.2) s r t) : Told log due s t [e] := by
  obtain ⟨more, hLog, hOthers⟩ := h.calls e he s r t hRun
  refine ⟨e :: more, hLog, ?_⟩
  have hNone : (more.filter fun e => e.1 ∈ due.map Prod.fst) = [] :=
    List.filter_eq_nil_iff.mpr fun e' he' hMem => hOthers e' he' (of_decide_eq_true hMem)
  rw [List.filter_cons, if_pos (decide_eq_true (List.mem_map_of_mem he)), hNone]

/-- The callbacks are called in turn; the first that raises is the last. -/
theorem runs_tell (h : Logs log raises due notify) {γ : Type} (deliver : γ → κ × Delivery) (requests : List γ)
    (hDue : ∀ request ∈ requests, deliver request ∈ due) (s : Session κ α) :
    ∃ r t, Runs (requests.forM fun request => notify (deliver request).1 (deliver request).2) s r t ∧
      Told log due s t (untilRaised raises (requests.map deliver)) := by
  induction requests generalizing s with
  | nil => exact ⟨_, s, .ret _ s, .refl log due s⟩
  | cons request rest ih =>
    obtain ⟨hFirst, hRest⟩ := List.forall_mem_cons.mp hDue
    obtain ⟨r, t, hRun⟩ := Runs.exists_run (notify (deliver request).1 (deliver request).2) s
    have hTold := h.told hFirst hRun
    have hOutcome := h.outcome _ hFirst s r t hRun
    rw [List.map_cons, untilRaised]
    cases r with
    | error e =>
      have hRaises : raises (deliver request).1 = true := by simpa [Except.isOk, Except.toBool] using hOutcome
      rw [if_pos hRaises]
      exact ⟨_, t, .bind_fail hRun, hTold⟩
    | ok _ =>
      have hRaises : raises (deliver request).1 = false := by simpa [Except.isOk, Except.toBool] using hOutcome
      obtain ⟨r', u, hRun', hTold'⟩ := ih hRest t
      rw [hRaises]
      exact ⟨r', u, .bind hRun hRun', hTold.trans hTold'⟩

theorem eachOnce_iff (h : Told log due s t (untilRaised raises due)) :
    EachOnce log due s t ↔ ∀ e ∈ due.dropLast, raises e.1 = false := by
  rw [← untilRaised_perm_iff]
  refine ⟨fun ⟨given, hGiven, hPerm⟩ => ?_, fun hPerm => ⟨_, h, hPerm⟩⟩
  rwa [h.unique hGiven]

/-! ### What each has for those who wait for it -/

def batchDue (q : FetchQueue κ) (outcome : Except Error (List Record)) : List (κ × Delivery) :=
  q.pending.map fun request => (request.2, .record (q.outcome outcome request.1))

def loadDue (waiting : List κ) (load : Nat) (outcome : Except Error (List Pointer)) : List (κ × Delivery) :=
  waiting.map fun caller => (caller, .relation (outcome.map fun _ => load))

def populationDue (waiting : List κ) (outcome : Except Error (List Record)) : List (κ × Delivery) :=
  waiting.map fun caller => (caller, .records outcome)

theorem tells_flush {n : Nat} {q : FetchQueue κ} {fetch : Fetch κ α} {outcome : Except Error (List Record)}
    (hQueue : s.queues[n]? = some q) (hPending : q.pending ≠ [])
    (hIds : ∀ request ∈ q.pending, request.1.isScalar = true)
    (hFetch : Runs (fetch q (FetchQueue.distinctIds q.pending)) (drain n s) outcome t)
    (hWritable : ∀ records, outcome = .ok records → ∀ r ∈ records, r.json.isWritable = true)
    (hLogs : Logs log raises (batchDue q outcome) notify) :
    Tells log raises (batchDue q outcome) (flush notify fetch n) s t := by
  obtain ⟨disk, hKeep⟩ : ∃ disk, Traffic.Keeps q outcome t.disk disk := by
    cases outcome with
    | ok records => exact q.exists_keep (hWritable records rfl) _
    | error e => exact ⟨_, rfl⟩
  obtain ⟨r, u, hTell, hTold⟩ := runs_tell hLogs _ q.pending (fun _ => List.mem_map_of_mem) { t with disk }
  exact ⟨r, u, runs_flush hQueue hPending hIds hFetch hKeep hTell, hTold, eachOnce_iff hTold⟩

theorem tells_relate {key : String} {caller : κ} {load : Nat} {memo : RelationMemo κ}
    {fetch : Work κ α (List Pointer)} {outcome : Except Error (List Pointer)}
    (hRequest : s.relations.request key caller = (.start load, memo))
    (hFetch : Runs fetch { s with relations := memo } outcome t)
    (hLogs : Logs log raises (loadDue (t.relations.complete key load outcome).1 load outcome) notify) :
    Tells log raises (loadDue (t.relations.complete key load outcome).1 load outcome)
      (relate notify key caller fetch) s t := by
  obtain ⟨r, u, hTell, hTold⟩ := runs_tell hLogs _ _ (fun _ => List.mem_map_of_mem)
    { t with relations := (t.relations.complete key load outcome).2 }
  exact ⟨r, u, runs_relate_start hRequest hFetch rfl hTell, hTold, eachOnce_iff hTold⟩

theorem tells_populateBy {ref : StoreRef} {callback : Option κ} {fetch : Work κ α (List Record)}
    {outcome : Except Error (List Record)} (hNobody : s.populations.get? ref.number = none)
    (hFetch : Runs (do let records ← fetch; serve (ref.store.swap records); return records)
      { s with populations := s.populations.set ref.number callback.toList } outcome t)
    (hLogs : Logs log raises (populationDue ((t.populations.get? ref.number).getD []) outcome) notify) :
    Tells log raises (populationDue ((t.populations.get? ref.number).getD []) outcome)
      (populateBy notify ref callback fetch) s t := by
  obtain ⟨r, u, hTell, hTold⟩ := runs_tell hLogs _ _ (fun _ => List.mem_map_of_mem)
    { t with populations := t.populations.erase ref.number }
  exact ⟨_, u, runs_populateBy_flies r hNobody hFetch hTell, hTold, eachOnce_iff hTold⟩

/-- When a batch, a load or a population has its outcome, in the session `t`, it is told until a callback raises;
so everyone is called exactly once when at most the last one raises. -/
theorem tells_waiting (notify : Notify κ α) (log : α → List (κ × Delivery)) (raises : κ → Bool)
    (s t : Session κ α) :
    (∀ (fetch : Fetch κ α) n q outcome, s.queues[n]? = some q → q.pending ≠ [] →
      (∀ request ∈ q.pending, request.1.isScalar = true) →
      Runs (fetch q (FetchQueue.distinctIds q.pending)) (drain n s) outcome t →
      (∀ records, outcome = .ok records → ∀ r ∈ records, r.json.isWritable = true) →
      Logs log raises (batchDue q outcome) notify →
      Tells log raises (batchDue q outcome) (flush notify fetch n) s t) ∧
    (∀ fetch key caller load memo outcome, s.relations.request key caller = (.start load, memo) →
      Runs fetch { s with relations := memo } outcome t →
      ∀ due, due = loadDue (t.relations.complete key load outcome).1 load outcome → Logs log raises due notify →
      Tells log raises due (relate notify key caller fetch) s t) ∧
    (∀ (fetch : Work κ α (List Record)) ref callback outcome, s.populations.get? ref.number = none →
      Runs (do let records ← fetch; serve (ref.store.swap records); return records)
        { s with populations := s.populations.set ref.number callback.toList } outcome t →
      ∀ due, due = populationDue ((t.populations.get? ref.number).getD []) outcome → Logs log raises due notify →
      Tells log raises due (populateBy notify ref callback fetch) s t) := by
  refine ⟨fun fetch n q outcome => tells_flush, ?_, ?_⟩
  · rintro fetch key caller load memo outcome hRequest hFetch due rfl hLogs
    exact tells_relate hRequest hFetch hLogs
  · rintro fetch ref callback outcome hNobody hFetch due rfl hLogs
    exact tells_populateBy hNobody hFetch hLogs

/-! ### Two who wait -/

def logAndRaise (raises : κ → Bool) : Notify κ (List (κ × Delivery)) := fun caller delivery => do
  modify fun s => { s with app := s.app ++ [(caller, delivery)] }
  if raises caller then throw unreachable

omit [DecidableEq κ] in
theorem logs_logAndRaise (raises : κ → Bool) (due : List (κ × Delivery)) :
    Logs id raises due (logAndRaise raises) := by
  have hRuns (e : κ × Delivery) (s : Session κ (List (κ × Delivery))) :
      Runs (logAndRaise raises e.1 e.2) s (if raises e.1 then .error unreachable else .ok ())
        { s with app := s.app ++ [e] } := by
    refine .bind (.alter _ s) ?_
    cases raises e.1
    · exact .ret _ _
    · exact .fail _ _
  refine ⟨fun e _ s r t hRun => ?_, fun e _ s r t hRun => ?_⟩
  · obtain ⟨-, rfl⟩ := hRun.unique (hRuns e s)
    exact ⟨[], rfl, fun _ h => (List.not_mem_nil h).elim⟩
  · obtain ⟨rfl, -⟩ := hRun.unique (hRuns e s)
    cases raises e.1 <;> rfl

def twoPending : FetchQueue String :=
  { className := "Note", store := none, pending := [(.string "a", "first"), (.string "b", "second")] }

def twoWaiting : Session String (List (String × Delivery)) := { queues := [twoPending], app := [] }

def failFetch : Fetch String (List (String × Delivery)) := fun _ _ => throw unreachable

/-- The last one may raise. -/
theorem tells_waiting_lastRaises :
    (∃ r t, Runs (flush (logAndRaise (· == "second")) failFetch 0) twoWaiting r t ∧
      EachOnce id (batchDue twoPending (.error unreachable)) (drain 0 twoWaiting) t) ∧
    (∃ r t, Runs (relate (logAndRaise fun _ => true) "likes" "first" (throw unreachable)) twoWaiting r t ∧
      EachOnce id (loadDue ["first"] 0 (.error unreachable)) twoWaiting t) ∧
    ∃ r t, Runs (populateBy (logAndRaise fun _ => true) ⟨0, "Note", .int 60⟩ (some "first") (throw unreachable))
        twoWaiting r t ∧
      EachOnce id (populationDue ["first"] (.error unreachable)) twoWaiting t := by
  refine ⟨?_, ?_, ?_⟩
  · obtain ⟨r, t, hRun, -, hIff⟩ := (tells_waiting (logAndRaise (· == "second")) id (· == "second") twoWaiting
      (drain 0 twoWaiting)).1 failFetch 0 twoPending (.error unreachable) rfl (by decide) (by decide) (.fail _ _)
      (fun _ h => nomatch h) (logs_logAndRaise _ _)
    exact ⟨r, t, hRun, hIff.mpr (by decide)⟩
  · obtain ⟨r, t, hRun, -, hIff⟩ := (tells_waiting (logAndRaise fun _ => true) id (fun _ => true) twoWaiting
      { twoWaiting with relations := (twoWaiting.relations.request "likes" "first").2 }).2.1 (throw unreachable) "likes"
      "first" 0 _ (.error unreachable) rfl (.fail _ _) _ rfl (logs_logAndRaise _ _)
    exact ⟨r, t, hRun, hIff.mpr (by decide)⟩
  · obtain ⟨r, t, hRun, -, hIff⟩ := (tells_waiting (logAndRaise fun _ => true) id (fun _ => true) twoWaiting
      { twoWaiting with populations := [(0, ["first"])] }).2.2 (throw unreachable) ⟨0, "Note", .int 60⟩ (some "first")
      (.error unreachable) rfl (.bind_fail (.fail _ _)) _ rfl (logs_logAndRaise _ _)
    exact ⟨r, t, hRun, hIff.mpr (by decide)⟩

/-- The first one raises: the second one is never told. -/
theorem not_eachOnce_firstRaises :
    ∃ r t, Runs (flush (logAndRaise (· == "first")) failFetch 0) twoWaiting r t ∧
      ¬ EachOnce id (batchDue twoPending (.error unreachable)) (drain 0 twoWaiting) t := by
  have hTells : Tells id (· == "first") (batchDue twoPending (.error unreachable))
      (flush (logAndRaise (· == "first")) failFetch 0) twoWaiting (drain 0 twoWaiting) :=
    tells_flush rfl (by decide) (by decide) (.fail _ _) (fun _ h => nomatch h) (logs_logAndRaise _ _)
  obtain ⟨r, t, hRun, -, hIff⟩ := hTells
  exact ⟨r, t, hRun, fun hEach => absurd (hIff.mp hEach _ List.mem_cons_self) (by decide)⟩

end RecordCache.Session
