import RecordCache.Client.Account
import RecordCache.Proofs.Client.Turns
import RecordCache.Proofs.LocalStore.Tidy
import RecordCache.Transport

/-!
# The current user and the session of the requests

Users log in, sign up, take over sessions and log out, in any order and whatever the server says. A user who
comes brings a session along, and logging out ends both. An attempt that fails leaves the user in place, next
to the session that it began with: so the session is the user's own exactly when the last attempt that failed
since, of those that touch the session, was one to take over that very session.
-/

namespace RecordCache

namespace Transport

/-- Of the calls only changes of the session matter to the requests that follow. -/
def after (t : Transport) (calls : List Call) : Transport :=
  calls.foldl
    (fun t call => match call with
      | .session token => t.withSession token
      | .request _ _ _ | .upload _ _ _ => t) t

/-- The session that requests carry. -/
def session? (t : Transport) : Option Json := t.headers.get? sessionHeader

variable {t : Transport}

theorem after_append (calls more : List Call) : t.after (calls ++ more) = (t.after calls).after more :=
  List.foldl_append

@[simp] theorem session?_withSession (token : Json) :
    (t.withSession token).session? = if token.truthy then some token else none := by
  rw [session?, withSession]
  split
  · rw [Assoc.get?_set, if_pos rfl]
  · rw [Assoc.get?_erase, if_pos rfl]

end Transport

namespace Session

variable {κ α β γ : Type} {s u : Session κ α} {t : Transport}

/-- The session that requests carry after the calls made so far. -/
def carried (t : Transport) (s : Session κ α) : Option Json := (t.after s.calls).session?

/-- Whoever is shown as the current user, requests carry the session of this user. -/
def CarriesItsUser (t : Transport) (s : Session κ α) : Prop :=
  ∀ user, s.user = some user → carried t s = some (user.record.rawField "sessionToken")

inductive Attempt
  | logIn (username password : Json)
  | signUp (username password : Json) (fields : Fields Json)
  | become (token : Json)
  | logOut

namespace Attempt

/-- Gives the user who has come, if it is not to leave. -/
def work : Attempt → Work κ α (Option Entity)
  | logIn username password => some <$> Session.logIn username password
  | signUp username password fields => some <$> Session.signUp username password fields
  | become token => some <$> Session.become token
  | logOut => (fun _ => none) <$> Session.logOut

/-- The session that a failed attempt leaves, if it gets as far as to touch the session. -/
def leaves : Attempt → Option Json
  | logIn _ _ => some .null
  | signUp _ _ fields => if ["self", "username", "password"].any fields.contains then none else some .null
  | become token => some token
  | logOut => none

end Attempt

structure Try where
  attempt : Attempt
  outcome : Except Error (Option Entity)

/-- The attempt to bring a user has failed. -/
def Try.Refused (a : Try) : Prop := a.attempt ≠ .logOut ∧ ∃ e, a.outcome = .error e

/-- Attempts one after another. Whatever the server is to say may change before each of them. -/
inductive Tries : Session κ α → List Try → Session κ α → Prop
  | nil (s : Session κ α) : Tries s [] s
  | cons {s s' u : Session κ α} {a : Try} {rest : List Try} (server : List (Call → Except Error Json))
      (h : Runs a.attempt.work { s with server } a.outcome s') (hRest : Tries s' rest u) : Tries s (a :: rest) u

/-- The session that the last of the failed attempts to touch it has left. -/
def lastLeft (failed : List Try) : Option Json := failed.reverse.findSome? fun a => a.attempt.leaves

/-! ### Work that leaves user and session alone -/

/-- Whatever the work comes to, neither the user nor the session has changed. -/
def Steady (work : Work κ α β) : Prop :=
  Moves (fun s u => u.user = s.user ∧ ∀ t : Transport, carried t u = carried t s) work

namespace Steady

theorem ret (b : β) : Steady (pure b : Work κ α β) := Moves.ret (fun _ => ⟨rfl, fun _ => rfl⟩) b

theorem ofExcept (r : Except Error β) : Steady (Session.ofExcept r : Work κ α β) :=
  Moves.ofExcept (fun _ => ⟨rfl, fun _ => rfl⟩) r

theorem trans (s s' u : Session κ α) (h : s'.user = s.user ∧ ∀ t : Transport, carried t s' = carried t s)
    (h' : u.user = s'.user ∧ ∀ t : Transport, carried t u = carried t s') :
    u.user = s.user ∧ ∀ t : Transport, carried t u = carried t s :=
  ⟨h'.1.trans h.1, fun t => (h'.2 t).trans (h.2 t)⟩

theorem bind {work : Work κ α γ} {next : γ → Work κ α β} (h : Steady work) (hNext : ∀ c, Steady (next c)) :
    Steady (work >>= next) := Moves.bind trans h hNext

theorem discard {work : Work κ α γ} (h : Steady work) : Steady (Functor.discard work) := Moves.map _ h

theorem request (method path : String) (params : Option (Fields Json)) :
    Steady (Session.request method path params : Work κ α Json) := by
  refine Moves.of_runs fun s => ⟨_, _, runs_send_reply _ s, rfl, fun t => ?_⟩
  rw [carried, sent, Transport.after_append]
  rfl

theorem field? (answer : Json) (key : String) : Steady (Session.field? answer key : Work κ α (Option Json)) := by
  cases answer with
  | object fields => exact ret _
  | _ => exact ofExcept (.error (.data .notObject))

theorem requireField (answer : Json) (key : String) : Steady (Session.requireField answer key : Work κ α Json) := by
  cases answer with
  | object fields =>
    rw [Session.requireField]
    cases Assoc.get? fields key with
    | some value => exact ret value
    | none => exact ofExcept (.error (.data (.missing key)))
  | _ => exact ofExcept (.error (.data .notIndexed))

theorem serve (serving : LocalStore.Serving β) : Steady (Session.serve serving : Work κ α β) := by
  refine Moves.of_runs fun s => ?_
  obtain ⟨result, disk, hServing⟩ := Runs.exists_run serving s.disk
  exact ⟨result, _, runs_serve hServing, rfl, fun _ => rfl⟩

theorem ownStore (className : String) : Steady (Session.ownStore className : Work κ α (Option StoreRef)) :=
  Moves.of_runs fun s => ⟨_, _, runs_store className .null s, rfl, fun _ => rfl⟩

theorem sendNew (b : Batch) : Steady (Session.sendNew b : Work κ α Record) :=
  (ofExcept _).bind fun _ => (ofExcept _).bind fun _ => (request _ _ _).bind fun answer =>
    (ofExcept _).bind fun _ => (requireField answer _).bind fun _ => (field? answer _).bind fun _ =>
    (field? answer _).bind fun _ => ret _

theorem keepNew (className : String) (r : Record) : Steady (Session.keepNew className r : Work κ α Unit) := by
  refine (ownStore _).bind fun ref => ?_
  cases ref with
  | none => exact ret _
  | some ref => exact serve _

theorem create (b : Batch) : Steady (Session.create b : Work κ α Record) :=
  (sendNew b).bind fun r => (keepNew b.className r).bind fun _ => ret r

theorem mapM {f : γ → Work κ α β} (h : ∀ c, Steady (f c)) (xs : List γ) : Steady (xs.mapM f) :=
  Moves.mapM (fun _ => ⟨rfl, fun _ => rfl⟩) trans h xs

theorem setting (className : String) (fields : Fields Json) :
    Steady (Session.setting className fields : Work κ α Batch) :=
  (mapM (fun _ => ofExcept _) fields).bind fun _ => ret _

end Steady

/-! ### One attempt -/

theorem runs_useSession (token : Json) (s : Session κ α) :
    Runs (useSession token) s (.ok ()) { s with calls := s.calls ++ [.session token] } := .alter _ s

theorem carried_session (t : Transport) (s : Session κ α) (token : Json) :
    carried t { s with calls := s.calls ++ [.session token] } = if token.truthy then some token else none := by
  rw [carried, Transport.after_append]
  exact Transport.session?_withSession token

/-- The user who has come is shown, with a session of the user's own. -/
def Comes (user : Entity) (u : Session κ α) : Prop :=
  u.user = some user ∧ (user.record.rawField "sessionToken").truthy = true ∧
    ∀ t : Transport, carried t u = some (user.record.rawField "sessionToken")

/-- The user stays, next to the session that was left, if it was touched. -/
def Stays (s : Session κ α) (left : Option Json) (u : Session κ α) : Prop :=
  u.user = s.user ∧ ∀ t : Transport, carried t u =
    left.elim (carried t s) fun token => if token.truthy then some token else none

def Settles (s : Session κ α) (left : Option Json) (outcome : Except Error Entity) (u : Session κ α) : Prop :=
  match outcome with
  | .ok user => Comes user u
  | .error _ => Stays s left u

theorem rawField_ofJson {fields : Fields Json} {r : Record} (h : Record.ofJson (.object fields) = .ok r)
    (key : String) : r.rawField key = (Assoc.get? fields key).getD .null := by
  cases h
  exact congrArg (Option.getD · Json.null) (Record.get?_ofFields fields key)

theorem run_of_known {a : γ} {next : γ → Work κ α β} {result : Except Error β}
    (h : Runs (pure a >>= next) s result u) : Runs (next a) s result u := h

theorem run_of_useSession {token : Json} {next : PUnit → Work κ α β} {result : Except Error β}
    (h : Runs (useSession token >>= next) s result u) :
    Runs (next ⟨⟩) { s with calls := s.calls ++ [.session token] } result u := h

theorem Settles.welcome {answer : Json} {outcome : Except Error Entity}
    (h : Runs (Session.welcome answer) s outcome u) :
    Settles s none outcome u := by
  cases answer with
  | object fields =>
    have hRest := run_of_known h
    by_cases hTruthy : ((Assoc.get? fields "sessionToken").getD .null).truthy = true
    · obtain ⟨r, hRecord⟩ : ∃ r, Record.ofJson (.object fields) = .ok r := ⟨_, rfl⟩
      simp only [hTruthy, hRecord] at hRest
      obtain ⟨rfl, rfl⟩ := hRest.unique (.bind (runs_useSession _ _)
        (.bind (runs_ofExcept (.ok r) _) (.bind (.alter _ _) (.ret _ _))))
      rw [Settles, Comes, rawField_ofJson hRecord]
      exact ⟨rfl, hTruthy, fun t => (carried_session t s _).trans (if_pos hTruthy)⟩
    · simp only [hTruthy] at hRest
      obtain ⟨rfl, rfl⟩ := hRest.unique (.bind_fail (.fail _ _))
      exact ⟨rfl, fun t => rfl⟩
  | _ =>
    obtain ⟨rfl, rfl⟩ := h.unique (.bind_fail (.fail _ _))
    exact ⟨rfl, fun t => rfl⟩

namespace Settles

variable {outcome : Except Error Entity} {left : Option Json}

/-- Work that leaves user and session alone comes first. When it fails, what is to be left is carried already. -/
theorem of_steady {first : Work κ α γ} {next : γ → Work κ α Entity} (hFirst : Steady first)
    (hLeft : left = none ∨ left = some .null ∧ ∀ t : Transport, carried t s = none)
    (hNext : ∀ c s', (∀ t : Transport, carried t s' = carried t s) → Runs (next c) s' outcome u →
      Settles s' left outcome u)
    (h : Runs (first >>= next) s outcome u) : Settles s left outcome u := by
  obtain ⟨c, s', hRun, hRest⟩ | ⟨e, rfl, hRun⟩ := Runs.bind_iff.mp h
  · obtain ⟨hUser, hCarried⟩ := hFirst _ _ _ hRun
    have hSettles := hNext c s' hCarried hRest
    cases outcome with
    | ok user => exact hSettles
    | error e =>
      refine ⟨hSettles.1.trans hUser, fun t => (hSettles.2 t).trans ?_⟩
      rw [hCarried]
  · obtain ⟨hUser, hCarried⟩ := hFirst _ _ _ hRun
    refine ⟨hUser, fun t => (hCarried t).trans ?_⟩
    obtain rfl | ⟨rfl, hNone⟩ := hLeft
    · rfl
    · exact hNone t

/-- What was carried before does not matter once another session has begun. -/
theorem of_session {token : Json} (hLeft : left = none ∨ left = some token)
    (h : Settles { s with calls := s.calls ++ [.session token] } left outcome u) :
    Settles s (some token) outcome u := by
  cases outcome with
  | ok user => exact h
  | error e =>
    refine ⟨h.1, fun t => (h.2 t).trans ?_⟩
    obtain rfl | rfl := hLeft
    · exact carried_session t s token
    · rfl

theorem logIn {username password : Json} (h : Runs (Session.logIn username password) s outcome u) :
    Settles s (some .null) outcome u := by
  have hRest := run_of_useSession h
  exact of_session (.inl rfl) (of_steady (.request _ _ _) (.inl rfl) (fun _ _ _ => welcome) hRest)

theorem become {token : Json} (h : Runs (Session.become token) s outcome u) :
    Settles s (some token) outcome u := by
  have hRest := run_of_useSession h
  refine of_session (.inl rfl) (of_steady (.request _ _ _) (.inl rfl) (fun answer s' _ hRun => ?_) hRest)
  cases answer with
  | object fields => exact welcome hRun
  | _ =>
    obtain ⟨rfl, rfl⟩ := hRun.unique (.fail _ _)
    exact ⟨rfl, fun _ => rfl⟩

theorem signUp {username password : Json} {fields : Fields Json}
    (h : Runs (Session.signUp username password fields) s outcome u) :
    Settles s (Attempt.signUp username password fields).leaves outcome u := by
  rw [Session.signUp, checkNames] at h
  rw [Attempt.leaves]
  split at h
  · next hNames =>
    obtain ⟨rfl, rfl⟩ := h.unique (.bind_fail (.fail _ _))
    rw [if_pos hNames]
    exact ⟨rfl, fun _ => rfl⟩
  · next hNames =>
    rw [if_neg hNames]
    have hRest := run_of_useSession (run_of_known h)
    have hNone (t : Transport) : carried t { s with calls := s.calls ++ [.session .null] } = none :=
      carried_session t s .null
    refine of_session (.inr rfl) (of_steady (.setting _ _) (.inr ⟨rfl, hNone⟩) (fun b s' hSame hRun => ?_) hRest)
    have hStill (t : Transport) : carried t s' = none := (hSame t).trans (hNone t)
    exact of_steady (Steady.create b).discard (.inr ⟨rfl, hStill⟩) (fun _ _ _ => logIn) hRun

end Settles

theorem user_logOut {outcome : Except Error Unit} (h : Runs logOut s outcome u) : u.user = none := by
  have hRest := Runs.of_get h
  cases hUser : s.user with
  | none =>
    simp only [hUser] at hRest
    obtain ⟨-, rfl⟩ := hRest.unique (.ret _ _)
    exact hUser
  | some user =>
    simp only [hUser] at hRest
    obtain ⟨result, s', -, hRest⟩ := run_of_attempt hRest
    obtain ⟨-, rfl⟩ := (run_of_useSession hRest).unique (.bind (.alter _ _) ((runs_ofExcept result _).map _))
    rfl

theorem exists_of_map {work : Work κ α γ} {f : γ → β} {outcome : Except Error β} (h : Runs (f <$> work) s outcome u) :
    ∃ r, Runs work s r u ∧ outcome = f <$> r := by
  obtain ⟨r, u', hWork⟩ := Runs.exists_run work s
  obtain ⟨rfl, rfl⟩ := h.unique (hWork.map f)
  exact ⟨r, hWork, rfl⟩

/-- An attempt brings a user, fails to bring one, or ends the session of the one who was there. -/
theorem Try.cases {a : Try} (h : Runs a.attempt.work s a.outcome u) :
    (∃ user, a.outcome = .ok (some user) ∧ Comes user u) ∨ (a.Refused ∧ Stays s a.attempt.leaves u) ∨
      (¬ a.Refused ∧ (∀ user, a.outcome ≠ .ok (some user)) ∧ u.user = none) := by
  obtain ⟨attempt, outcome⟩ := a
  have hBrings {work : Work κ α Entity} (hNot : attempt ≠ .logOut)
      (hSettles : ∀ r, Runs work s r u → Settles s attempt.leaves r u) (hRun : Runs (some <$> work) s outcome u) :
      (∃ user, outcome = .ok (some user) ∧ Comes user u) ∨
        (Try.Refused ⟨attempt, outcome⟩ ∧ Stays s attempt.leaves u) := by
    obtain ⟨r, hWork, rfl⟩ := exists_of_map hRun
    have hEffect := hSettles r hWork
    cases r with
    | ok user => exact .inl ⟨user, rfl, hEffect⟩
    | error e => exact .inr ⟨⟨hNot, e, rfl⟩, hEffect⟩
  cases attempt with
  | logIn username password => exact (hBrings nofun (fun _ => .logIn) h).imp_right .inl
  | signUp username password fields => exact (hBrings nofun (fun _ => .signUp) h).imp_right .inl
  | become token => exact (hBrings nofun (fun _ => .become) h).imp_right .inl
  | logOut =>
    obtain ⟨r, hWork, rfl⟩ := exists_of_map h
    refine .inr (.inr ⟨fun hRefused => hRefused.1 rfl, fun user hOk => ?_, user_logOut hWork⟩)
    obtain ⟨_, -, hNone⟩ := Except.map_eq_ok.mp hOk
    cases hNone

/-! ### Many attempts -/

namespace Tries

variable {tries before failed : List Try}

theorem exists_of_append {after : List Try} (h : Tries s (before ++ after) u) :
    ∃ s', Tries s before s' ∧ Tries s' after u := by
  induction before generalizing s with
  | nil => exact ⟨s, .nil s, h⟩
  | cons a rest ih =>
    cases h with
    | cons server hFirst hRest =>
      obtain ⟨s', hBefore, hAfter⟩ := ih hRest
      exact ⟨s', .cons server hFirst hBefore, hAfter⟩

/-- Attempts that fail leave the user in place; the last of them to touch the session decides about it. -/
theorem stays (h : Tries s failed u) (hFailed : ∀ a ∈ failed, a.Refused) : Stays s (lastLeft failed) u := by
  induction h with
  | nil s => exact ⟨rfl, fun _ => rfl⟩
  | @cons s s' u a rest server hFirst hRest ih =>
    obtain ⟨hUser, hCarried⟩ := ih fun a hMem => hFailed a (List.mem_cons_of_mem _ hMem)
    have hRefused := hFailed a List.mem_cons_self
    have hLast : lastLeft (a :: rest) = (lastLeft rest).or a.attempt.leaves := by
      simp [lastLeft, List.findSome?_append]
    obtain ⟨user, hOutcome, -⟩ | ⟨-, hSame, hLeft⟩ | ⟨hNot, -⟩ := Try.cases hFirst
    · obtain ⟨-, e, hError⟩ := hRefused
      rw [hOutcome] at hError
      cases hError
    · refine ⟨hUser.trans hSame, fun t => (hCarried t).trans ?_⟩
      rw [hLast, hLeft]
      cases lastLeft rest <;> rfl
    · exact absurd hRefused hNot

/-- Behind one who has come, with nothing but failed attempts since. -/
theorem of_comes {a : Attempt} {user : Entity} (h : Tries s (before ++ ⟨a, .ok (some user)⟩ :: failed) u)
    (hFailed : ∀ f ∈ failed, f.Refused) : ∃ s', Comes user s' ∧ Stays s' (lastLeft failed) u := by
  obtain ⟨s₁, -, hRest⟩ := h.exists_of_append
  cases hRest with
  | @cons _ s' _ _ _ server hFirst hRest =>
    refine ⟨s', ?_, hRest.stays hFailed⟩
    obtain ⟨user', hOutcome, hComes⟩ | ⟨⟨-, e, hError⟩, -⟩ | ⟨-, hOther, -⟩ := Try.cases hFirst
    · cases hOutcome
      exact hComes
    · cases hError
    · exact absurd rfl (hOther user)

/-- Whoever is shown was there before and all attempts have failed since, or has come by the last one that has not. -/
theorem of_user {user : Entity} (h : Tries s tries u) (hUser : u.user = some user) :
    (s.user = some user ∧ ∀ a ∈ tries, a.Refused) ∨
      ∃ before a failed, tries = before ++ ⟨a, .ok (some user)⟩ :: failed ∧ ∀ f ∈ failed, f.Refused := by
  induction h with
  | nil s => exact .inl ⟨hUser, nofun⟩
  | @cons s s' u a rest server hFirst hRest ih =>
    obtain ⟨hCame, hFailed⟩ | ⟨before, a', failed, rfl, hFailed⟩ := ih hUser
    · obtain ⟨user', hOutcome, hShown, -⟩ | ⟨hRefused, hSame, -⟩ | ⟨-, -, hNone⟩ := Try.cases hFirst
      · obtain ⟨attempt, outcome⟩ := a
        rw [hShown, Option.some.injEq] at hCame
        subst hCame
        subst hOutcome
        exact .inr ⟨[], attempt, rest, rfl, hFailed⟩
      · exact .inl ⟨hSame.symm.trans hCame, List.forall_mem_cons.mpr ⟨hRefused, hFailed⟩⟩
      · rw [hNone] at hCame
        cases hCame
    · exact .inr ⟨a :: before, a', failed, rfl, hFailed⟩

end Tries

/-- From a client without a user: whoever is shown has the session of the requests exactly when, for each user who has
come with nothing but failed attempts since, the last of these to touch the session was one to take over the user's
own. -/
theorem carriesItsUser_iff {tries : List Try} (hNew : s.user = none) (h : Tries s tries u) :
    CarriesItsUser t u ↔
      ∀ before a user failed, tries = before ++ ⟨a, .ok (some user)⟩ :: failed → (∀ f ∈ failed, f.Refused) →
        ∀ token, lastLeft failed = some token → token = user.record.rawField "sessionToken" := by
  constructor
  · rintro hCarries before a user failed rfl hFailed token hLeft
    obtain ⟨s', ⟨hUser, -, -⟩, hSame, hCarried⟩ := h.of_comes hFailed
    have hOwn := (hCarried t).symm.trans (hCarries user (hSame.trans hUser))
    rw [hLeft, Option.elim_some] at hOwn
    split at hOwn
    · exact Option.some.inj hOwn
    · cases hOwn
  · intro hOwn user hUser
    obtain ⟨hOld, -⟩ | ⟨before, a, failed, rfl, hFailed⟩ := h.of_user hUser
    · rw [hNew] at hOld
      cases hOld
    · obtain ⟨s', ⟨-, hTruthy, hToken⟩, -, hCarried⟩ := h.of_comes hFailed
      rw [hCarried]
      cases hLeft : lastLeft failed with
      | none => exact hToken t
      | some token =>
        rw [Option.elim_some, hOwn before a user failed rfl hFailed token hLeft]
        exact if_pos hTruthy

/-! ### A user, and attempts that fail -/

def visitor : Session Unit Unit := { app := () }

def aliceFields : Fields Json := [("objectId", .string "u1"), ("sessionToken", .string "r:abc")]

def alice : Entity := ⟨Schema.user, .ofFields aliceFields⟩

def aliceLogsIn : Try := ⟨.logIn (.string "alice") (.string "secret"), .ok (some alice)⟩

def line : Transport := ⟨"https://api.parse.com/1", .null, []⟩

/-- Taking over the own session fails, and the user still has it. -/
theorem carriesItsUser_iff_becomeAgain :
    ∃ u, Tries visitor [aliceLogsIn, ⟨.become (.string "r:abc"), .error unreachable⟩] u ∧ visitor.user = none ∧
      u.user = some alice ∧ CarriesItsUser line u := by
  have hTries : ∃ u, Tries visitor [aliceLogsIn, ⟨.become (.string "r:abc"), .error unreachable⟩] u ∧
      u.user = some alice :=
    ⟨_, .cons [fun _ => .ok (.object aliceFields)] rfl (.cons [] rfl (.nil _)), rfl⟩
  obtain ⟨u, hTries, hUser⟩ := hTries
  refine ⟨u, hTries, rfl, hUser, (carriesItsUser_iff rfl hTries).mpr ?_⟩
  intro before a user failed hSplit hFailed token hLeft
  match before with
  | [] =>
    cases hSplit
    cases hLeft
    rfl
  | [first] => simp at hSplit
  | first :: second :: rest => simp at hSplit

/-- Somebody else fails to log in: the first user is still shown, and requests carry no session. -/
theorem not_carriesItsUser_otherFails :
    ∃ u, Tries visitor [aliceLogsIn, ⟨.logIn (.string "bob") (.string "guess"), .error unreachable⟩] u ∧
      u.user = some alice ∧ carried line u = none ∧ ¬ CarriesItsUser line u := by
  refine ⟨_, .cons [fun _ => .ok (.object aliceFields)] rfl (.cons [] rfl (.nil _)), rfl, rfl, fun hCarries => ?_⟩
  exact nomatch hCarries alice rfl

end Session

end RecordCache
