import RecordCache.Client.Search
import RecordCache.Proofs.Runs

/-!
# Runs on a session

How the pieces of work that a session is made of run.
-/

namespace RecordCache.Session

variable {κ α β : Type} {s s' : Session κ α}

theorem runs_ofExcept (r : Except Error β) (s : Session κ α) : Runs (ofExcept r : Work κ α β) s r s := rfl

theorem runs_attempt {work : Work κ α β} {r : Except Error β} (h : Runs work s r s') :
    Runs (attempt work) s (.ok r) s' := .lift _ h

theorem moves_attempt {R : Session κ α → Session κ α → Prop} {work : Work κ α β} (h : Moves R work) :
    Moves R (attempt work) := by
  refine .of_runs fun s => ?_
  obtain ⟨r, t, hRun⟩ := Runs.exists_run work s
  exact ⟨_, t, runs_attempt hRun, h _ _ _ hRun⟩

theorem runs_serve {serving : LocalStore.Serving β} {r : Except Error β} {disk : Disk}
    (h : Runs serving s.disk r disk) : Runs (serve serving : Work κ α β) s r { s with disk } := by
  have hDisk : Runs (onDisk serving.run : Work κ α (Except Error β)) s (.ok r) { s with disk } := by
    have hStep : (onDisk serving.run : Work κ α (Except Error β)).run.run s =
        (.ok (serving.run.run s.disk).1, { s with disk := (serving.run.run s.disk).2 }) := rfl
    rw [Runs, hStep, h]
  exact hDisk.bind (runs_ofExcept r _)

/-! ### Requests -/

section Requests

variable {className : String} {params fields : Fields Json} {answer : Call → Except Error Json}
  {rest : List (Call → Except Error Json)} {records : List Record}

/-- What the server says to a call. -/
def reply (s : Session κ α) (call : Call) : Except Error Json :=
  match s.server.head? with
  | some answer => answer call
  | none => .error unreachable

/-- The session after a call, which took an answer if there was one. -/
def sent (s : Session κ α) (call : Call) : Session κ α :=
  { s with calls := s.calls ++ [call], server := s.server.tail }

theorem runs_send_reply (call : Call) (s : Session κ α) : Runs (send call) s (s.reply call) (s.sent call) := by
  refine .bind (.state s) (.bind (.put _ s) ?_)
  rw [reply]
  cases s.server.head? with
  | some answer => exact runs_ofExcept _ _
  | none => exact .fail _ _

/-- What holds of every answer of a server, and of one that cannot be reached, holds of what is said. -/
theorem of_reply {P : Except Error Json → Prop} {call : Call} (hUnreachable : P (.error unreachable))
    (h : ∀ answer ∈ s.server, P (answer call)) : P (s.reply call) := by
  rw [reply]
  split
  · next answer hServer => exact h answer (List.mem_of_mem_head? hServer)
  · exact hUnreachable

theorem runs_send (h : s.server.head? = some answer) (call : Call) :
    Runs (send call) s (answer call) { s with calls := s.calls ++ [call], server := s.server.tail } := by
  have hSent := runs_send_reply call s
  rw [reply, h] at hSent
  exact hSent

/-- The records of an answer. -/
def recordsIn (fields : Fields Json) : Except DataFault (List Record) :=
  match Assoc.get? fields "results" with
  | none => .ok []
  | some results => do (← results.iterate).mapM Record.ofJson

theorem runs_recordsOf (h : recordsIn fields = .ok records) (s : Session κ α) :
    Runs (recordsOf (.object fields)) s (.ok records) s := by
  refine .bind (.ret _ s) ?_
  rw [recordsIn] at h
  cases hResults : Assoc.get? fields "results" with
  | none =>
    rw [hResults] at h
    cases h
    exact .ret _ _
  | some results =>
    simp only [hResults] at h
    change Runs (ofData _) s _ s
    rw [h]
    exact runs_ofExcept _ _

/-- The session after these requests, each of which took an answer. -/
def asked (s : Session κ α) (calls : List Call) (left : List (Call → Except Error Json)) : Session κ α :=
  { s with calls := s.calls ++ calls, server := left }

theorem asked_asked (s : Session κ α) (calls calls' : List Call) (left left' : List (Call → Except Error Json)) :
    (s.asked calls left).asked calls' left' = s.asked (calls ++ calls') left' := by
  simp only [asked, List.append_assoc]

/-- The request for the records of a class. -/
def listing (className : String) (params : Fields Json) : Call :=
  .request "GET" (Schema.path className .null) (some (.object params))

/-- The answer to the request has these records. -/
def Gives (answer : Call → Except Error Json) (call : Call) (records : List Record) : Prop :=
  ∃ fields, answer call = .ok (.object fields) ∧ recordsIn fields = .ok records

theorem runs_findRecords (hServer : s.server = answer :: rest) (h : Gives answer (listing className params) records) :
    Runs (findRecords className params) s (.ok records) (s.asked [listing className params] rest) := by
  obtain ⟨fields, hAnswer, hRecords⟩ := h
  have hHead : s.server.head? = some answer := by rw [hServer]; rfl
  have hSend := runs_send hHead (listing className params)
  rw [hAnswer, hServer] at hSend
  exact hSend.bind (runs_recordsOf hRecords _)

end Requests

end RecordCache.Session
