import RecordCache.Proofs.Client.Creating
import RecordCache.Proofs.Client.CurrentUser
import RecordCache.Proofs.Client.Fetched
import RecordCache.Proofs.Json.Strings
import RecordCache.Proofs.LocalStore.Alike

/-!
# Passwords and the cache

The record of a new user is made from what was sent, and the password was sent with it. So two clients that differ in
the password only, and hear the same from the server, end with the same blobs exactly when the passwords are the same
or the record is not kept.
-/

namespace RecordCache

/-! ### Records of users -/

/-- A record with a password, among these fields. -/
def userRecord (before after : Fields Json) (password : String) : Record :=
  .ofFields (before ++ ("password", .string password) :: after)

section Users

variable (before after : Fields Json) (p q : String)

theorem json_userRecord :
    (userRecord before after p).json = .object (before ++ ("password", .string p) :: after) := Keyed.json_ofFields _

theorem idJson_userRecord :
    LocalStore.idJson (userRecord before after p) = LocalStore.idJson (userRecord before after q) := by
  have hId (password : String) :
      (userRecord before after password).get? "objectId" = Assoc.get? (before ++ after) "objectId" := by
    rw [userRecord, Record.get?, Record.ofFields, Record.get?_ofFields, Assoc.get?_around (by decide)]
  simp only [LocalStore.idJson, Record.objectId?, Record.scalar, Record.rawField, hId]

theorem isWritable_userRecord :
    (userRecord before after p).json.isWritable = (userRecord before after q).json.isWritable := by
  have hRest (password : String) :
      (userRecord before after password).json.isWritable = (Json.object (before ++ after)).isWritable := by
    rw [json_userRecord, Bool.eq_iff_iff, Json.isWritable_object, Json.isWritable_object]
    simp [Json.isWritable, or_imp, forall_and]
  rw [hRest, hRest]

end Users

namespace Session

variable {κ α β : Type} {s t t' u : Session κ α} {username : Json} {fields : Fields Json} {p q : String}

/-! ### Signing up -/

/-- Signing up as far as the new user: what the server makes of it. -/
def enroll (username : Json) (password : String) (fields : Fields Json) : Work κ α Record := do
  checkNames ["self", "username", "password"] fields
  useSession .null
  sendNew (← setting "_User" ([("username", username), ("password", .string password)] ++ fields))

/-- Then the record of the user is kept, and the user logs in. -/
theorem signUp_eq (username : Json) (password : String) (fields : Fields Json) :
    (signUp username (.string password) fields : Work κ α Entity) = (do
      let r ← enroll username password fields
      keepNew "_User" r
      logIn username (.string password)) := by
  simp only [signUp, enroll, create, setting, Functor.discard, LawfulFunctor.map_const, Function.comp_apply,
    map_eq_pure_bind, bind_assoc, pure_bind]

/-- Whatever is answered is answered with another password as well. -/
def IgnoresPassword (answer : Call → Except Error Json) : Prop :=
  ∀ method path (before after : Fields Json) (p q : String),
    answer (.request method path (some (.object (before ++ ("password", .string p) :: after)))) =
      answer (.request method path (some (.object (before ++ ("password", .string q) :: after))))

theorem reply_ignores (hServer : ∀ answer ∈ s.server, IgnoresPassword answer) (before after : Fields Json)
    (p q : String) :
    s.reply (creation "_User" (before ++ ("password", .string p) :: after)) =
      s.reply (creation "_User" (before ++ ("password", .string q) :: after)) := by
  rw [reply, reply]
  split
  · next answer hAnswer => exact hServer answer (List.mem_of_mem_head? hAnswer) _ _ _ _ _ _
  · rfl

/-- What a new user is set to. -/
def userValues (name : Value) (password : String) (values : Fields Value) : Fields Value :=
  ("username", name) :: ("password", .scalar (.string password)) :: values

/-- Where the server does not look at the password, it is all that two new users differ in. -/
theorem exists_sendValues (hServer : ∀ answer ∈ s.server, IgnoresPassword answer) (name : Value)
    {values : Fields Value} (hApart : "password" ∉ values.keys) :
    ∃ outcome : Except Error (Fields Json × Fields Json), ∀ password, ∃ t,
      Runs (sendNew (settingAll "_User" (userValues name password values))) s
        ((fun around => userRecord around.1 around.2 password) <$> outcome) t := by
  have hOthers : "password" ∉ (wired values).keys := by
    rw [keys_wired]
    exact hApart
  obtain ⟨before, after, hBody⟩ := Assoc.exists_merge_around hOthers [("username", name.json)] []
  have hWired (password : String) : Assoc.ofList (wired (userValues name password values)) =
      before ++ ("password", .string password) :: after := hBody (.string password)
  have hSent (password : String) := runs_sendNew_sets "_User" (userValues name password values) s
  -- what is said to an empty password is said to any other
  simp only [hWired, reply_ignores hServer before after _ ""] at hSent
  cases hOwn : s.reply (creation "_User" (before ++ ("password", .string "") :: after)) >>= newFields with
  | error e =>
    rw [hOwn] at hSent
    exact ⟨.error e, fun password => ⟨_, hSent password⟩⟩
  | ok own =>
    rw [hOwn] at hSent
    obtain ⟨answer, -, hNew⟩ := Except.bind_eq_ok.mp hOwn
    have hFresh : "password" ∉ own.keys := by
      rw [keys_newFields hNew]
      decide
    obtain ⟨before', after', hRecord⟩ := Assoc.exists_merge_around hFresh before after
    have hMerged (password : String) :
        (Record.ofFields (before ++ ("password", .string password) :: after)).merged <$> Except.ok own =
          (.ok (userRecord before' after' password) : Except Error Record) := by
      rw [Except.map_ok, Record.merged_ofFields, hRecord, userRecord]
    simp only [hMerged] at hSent
    exact ⟨.ok (before', after'), fun password => ⟨_, hSent password⟩⟩

theorem inputs_user (username : Json) (password : String) (fields : Fields Json) :
    inputs ([("username", username), ("password", .string password)] ++ fields) = (do
      let name ← Value.ofArgument username
      return userValues name password (← inputs fields)) := by
  have hPassword : Value.ofArgument (.string password) = .ok (.scalar (.string password)) := rfl
  rw [List.cons_append, List.singleton_append, inputs_cons, inputs_cons, hPassword]
  cases Value.ofArgument username with
  | error e => rfl
  | ok name => cases inputs fields <;> rfl

theorem exists_sendUser (hServer : ∀ answer ∈ s.server, IgnoresPassword answer) (username : Json)
    (hApart : "password" ∉ fields.keys) :
    ∃ outcome : Except Error (Fields Json × Fields Json), ∀ password, ∃ t,
      Runs (setting "_User" ([("username", username), ("password", .string password)] ++ fields) >>= sendNew) s
        ((fun around => userRecord around.1 around.2 password) <$> outcome) t := by
  have hSetting (password : String) :=
    runs_setting "_User" ([("username", username), ("password", .string password)] ++ fields) s
  simp only [inputs_user] at hSetting
  cases hName : Value.ofArgument username with
  | error e =>
    rw [hName] at hSetting
    exact ⟨.error e, fun password => ⟨s, (hSetting password).bind_fail⟩⟩
  | ok name =>
    cases hInputs : inputs fields with
    | error e =>
      rw [hName, hInputs] at hSetting
      exact ⟨.error e, fun password => ⟨s, (hSetting password).bind_fail⟩⟩
    | ok values =>
      rw [hName, hInputs] at hSetting
      rw [← keys_inputs hInputs] at hApart
      obtain ⟨outcome, hRuns⟩ := exists_sendValues hServer name hApart
      exact ⟨outcome, fun password => (hRuns password).imp fun t hRun => (hSetting password).bind hRun⟩

theorem exists_enroll (hServer : ∀ answer ∈ s.server, IgnoresPassword answer) (username : Json)
    (fields : Fields Json) :
    ∃ outcome : Except Error (Fields Json × Fields Json), ∀ password, ∃ t,
      Runs (enroll username password fields) s
        ((fun around => userRecord around.1 around.2 password) <$> outcome) t := by
  by_cases hNames : ["self", "username", "password"].any fields.contains = true
  · refine ⟨.error (.setting .unexpectedKeyword), fun password => ⟨s, ?_⟩⟩
    rw [enroll, checkNames, if_pos hNames]
    exact .bind_fail (.fail _ _)
  · have hApart : "password" ∉ fields.keys := fun hMem =>
      hNames (List.any_eq_true.mpr ⟨"password", by decide, (Assoc.mem_keys_iff _ _).mp hMem⟩)
    have hServer' : ∀ answer ∈ ({ s with calls := s.calls ++ [.session .null] } : Session κ α).server,
        IgnoresPassword answer := hServer
    obtain ⟨outcome, hRuns⟩ := exists_sendUser hServer' username hApart
    refine ⟨outcome, fun password => (hRuns password).imp fun t hRun => ?_⟩
    rw [enroll, checkNames, if_neg hNames]
    exact .bind (.ret _ _) (.bind (runs_useSession .null s) hRun)

namespace Aside

theorem useSession (token : Json) : Aside (Session.useSession token : Work κ α Unit) :=
  Moves.of_runs fun s => ⟨_, _, runs_useSession token s, rfl, rfl⟩

theorem fail (e : Error) : Aside (throw e : Work κ α β) := ofExcept (.error e)

theorem setting (className : String) (fields : Fields Json) :
    Aside (Session.setting className fields : Work κ α Batch) :=
  Moves.of_runs fun s => ⟨_, _, runs_setting className fields s, rfl, rfl⟩

theorem enroll (username : Json) (password : String) (fields : Fields Json) :
    Aside (Session.enroll username password fields : Work κ α Record) := by
  have hNames : Aside (checkNames ["self", "username", "password"] fields : Work κ α Unit) := by
    rw [checkNames]
    split
    · exact fail _
    · exact ofExcept (.ok _)
  exact hNames.bind fun _ => (useSession _).bind fun _ => (setting _ _).bind fun b => sendNew b

theorem welcome (answer : Json) : Aside (Session.welcome answer : Work κ α Entity) := by
  have hUser (token : Json) : Aside (do
      Session.useSession token
      let user : Entity := ⟨Schema.user, ← ofData (Record.ofJson answer)⟩
      modify fun s => { s with user := some user }
      return user : Work κ α Entity) :=
    (useSession token).bind fun _ => (ofExcept _).bind fun _ =>
      Moves.of_runs fun s => ⟨_, _, .bind (.alter _ s) (.ret _ _), rfl, rfl⟩
  refine (field? answer _).bind fun token => ?_
  dsimp only
  split
  · exact (fail _).bind fun _ => hUser _
  · exact hUser _

theorem logIn (username password : Json) : Aside (Session.logIn username password : Work κ α Entity) :=
  (useSession _).bind fun _ => (send _).bind fun answer => welcome answer

end Aside

/-- The disk once the record of a new user was to be kept, if there is one. -/
def Leaves (s : Session κ α) (d : Disk) : Except Error Record → Prop
  | .error _ => d = s.disk
  | .ok r =>
    match (s.registry.ownStore "_User").1 with
    | some ref => ∃ result, Runs (ref.store.persist r true) s.disk result d
    | none => d = s.disk

theorem runs_ownStore (className : String) (s : Session κ α) :
    Runs (ownStore className) s (.ok (s.registry.ownStore className).1)
      { s with registry := (s.registry.ownStore className).2 } := rfl

theorem leaves_of_keepNew {r : Record} {result : Except Error Unit} (h : Runs (keepNew "_User" r) s result t) :
    s.Leaves t.disk (.ok r) := by
  have hOwn := runs_ownStore "_User" s
  rw [Leaves]
  cases hStore : (s.registry.ownStore "_User").1 with
  | none =>
    rw [hStore] at hOwn
    obtain ⟨-, rfl⟩ := h.unique (hOwn.bind (.ret _ _))
    rfl
  | some ref =>
    rw [hStore] at hOwn
    obtain ⟨kept, d, hPersist⟩ := Runs.exists_run (ref.store.persist r true) s.disk
    obtain ⟨-, rfl⟩ := h.unique (hOwn.bind (runs_serve hPersist))
    exact ⟨kept, hPersist⟩

theorem leaves_of_signUp {made : Except Error Record} {result : Except Error Entity}
    (hMade : Runs (enroll username p fields) s made u) (h : Runs (signUp username (.string p) fields) s result t) :
    s.Leaves t.disk made := by
  obtain ⟨hDisk, hRegistry⟩ := Aside.enroll username p fields _ _ _ hMade
  rw [signUp_eq] at h
  cases made with
  | error e =>
    obtain ⟨-, rfl⟩ := h.unique hMade.bind_fail
    exact hDisk
  | ok r =>
    obtain ⟨kept, t₁, hKept⟩ := Runs.exists_run (keepNew "_User" r) u
    have hLeaves := leaves_of_keepNew hKept
    rw [Leaves, hDisk, hRegistry] at hLeaves
    suffices hSame : t.disk = t₁.disk by
      rw [hSame]
      exact hLeaves
    cases kept with
    | error e =>
      obtain ⟨-, rfl⟩ := h.unique (hMade.bind hKept.bind_fail)
      rfl
    | ok kept =>
      obtain ⟨user, t₂, hUser⟩ := Runs.exists_run (logIn username (.string p)) t₁
      obtain ⟨-, rfl⟩ := h.unique (hMade.bind (hKept.bind hUser))
      exact (Aside.logIn _ _ _ _ _ hUser).1

/-- The server takes the new user, and the cache takes the record. -/
def KeepsUser (s : Session κ α) (username : Json) (fields : Fields Json) (password : String) : Prop :=
  ∃ r t ref, Runs (enroll username password fields) s (.ok r) t ∧
    (s.registry.ownStore "_User").1 = some ref ∧ ref.store.Admits s.disk r

theorem keepsUser_iff {made : Except Error Record} (hMade : Runs (enroll username p fields) s made u) :
    s.KeepsUser username fields p ↔
      ∃ r ref, made = .ok r ∧ (s.registry.ownStore "_User").1 = some ref ∧ ref.store.Admits s.disk r := by
  constructor
  · rintro ⟨r, t, ref, hRun, hRef, hAdmits⟩
    exact ⟨r, ref, (hMade.unique hRun).1, hRef, hAdmits⟩
  · rintro ⟨r, ref, rfl, hRef, hAdmits⟩
    exact ⟨r, u, ref, hMade, hRef, hAdmits⟩

end Session

namespace Disk

/-- The blobs as anyone can read them: where they are, what is in them, and when they were written. -/
def octets (d : Disk) : List (Spot × List UInt8 × Float) := d.blobs.map fun e => (e.1, e.2.content.bytes, e.2.mtime)

theorem bytes_of_octets {d d' : Disk} (h : d.octets = d'.octets) (spot : Spot) :
    (d.blobs.get? spot).map (·.content.bytes) = (d'.blobs.get? spot).map (·.content.bytes) := by
  have hBlob (d : Disk) : (Assoc.get? d.octets spot).map Prod.fst = (d.blobs.get? spot).map (·.content.bytes) := by
    rw [octets, Assoc.get?_map_snd d.blobs (fun stored => (stored.content.bytes, stored.mtime)), Option.map_map]
    rfl
  rw [← hBlob, ← hBlob, h]

end Disk

namespace Session

variable {κ α β : Type} {s t t' u : Session κ α} {username : Json} {fields : Fields Json} {p q : String}

section Kept

variable {store : LocalStore} {before after : Fields Json} {d d₁ d₂ : Disk} {result result' : Except Error Unit}
  (h : Runs (store.persist (userRecord before after p) true) d result d₁)
  (h' : Runs (store.persist (userRecord before after q) true) d result' d₂)

include h h'

/-- A record that is kept tells the password. -/
theorem eq_of_octets (hAdmits : store.Admits d (userRecord before after p)) (hSame : d₁.octets = d₂.octets) :
    p = q := by
  obtain ⟨spot, stored, hStored, hThere, hOther⟩ := LocalStore.persist_taken (idJson_userRecord _ _ q p)
    (isWritable_userRecord _ _ q p) (json_userRecord _ _ _) (json_userRecord _ _ _) hAdmits h
  obtain ⟨-, rfl⟩ := h'.unique hOther
  have hBytes := Disk.bytes_of_octets hSame spot
  rw [Disk.refilled, Assoc.get?_adjust, if_pos rfl, hThere] at hBytes
  have hText : stored.content.bytes = (Blob.document (userRecord before after q).json).bytes := Option.some.inj hBytes
  rw [hStored, json_userRecord, json_userRecord] at hText
  exact Json.eq_of_write_object (Text.Utf8.encode_inj hText)

theorem eq_of_not_admits (hAdmits : ¬ store.Admits d (userRecord before after p)) : d₁ = d₂ := by
  have hOther := LocalStore.persist_refused (idJson_userRecord _ _ q p) (isWritable_userRecord _ _ q p) hAdmits h
  exact (hOther.unique h').2

end Kept

/-- The blobs do not tell two passwords apart, unless the server takes the new user and the cache the record. -/
theorem signUp_octets_iff {result result' : Except Error Entity}
    (hServer : ∀ answer ∈ s.server, IgnoresPassword answer)
    (h : Runs (signUp username (.string p) fields) s result t)
    (h' : Runs (signUp username (.string q) fields) s result' t') :
    t.disk.octets = t'.disk.octets ↔ (s.KeepsUser username fields p → p = q) := by
  obtain ⟨outcome, hEnroll⟩ := exists_enroll hServer username fields
  obtain ⟨u, hMade⟩ := hEnroll p
  obtain ⟨u', hMade'⟩ := hEnroll q
  have hLeft := leaves_of_signUp hMade h
  have hLeft' := leaves_of_signUp hMade' h'
  rw [keepsUser_iff hMade]
  cases outcome with
  | error e =>
    have hSame : t.disk = t'.disk := hLeft.trans hLeft'.symm
    exact iff_of_true (congrArg Disk.octets hSame) nofun
  | ok around =>
    obtain ⟨before, after⟩ := around
    simp only [Except.map_ok, Leaves] at hLeft hLeft'
    cases hStore : (s.registry.ownStore "_User").1 with
    | none =>
      rw [hStore] at hLeft hLeft'
      have hSame : t.disk = t'.disk := hLeft.trans hLeft'.symm
      exact iff_of_true (congrArg Disk.octets hSame) fun ⟨_, _, _, hNone, _⟩ => nomatch hNone
    | some ref =>
      rw [hStore] at hLeft hLeft'
      obtain ⟨kept, hKept⟩ := hLeft
      obtain ⟨kept', hKept'⟩ := hLeft'
      by_cases hAdmits : ref.store.Admits s.disk (userRecord before after p)
      · refine ⟨fun hSame _ => eq_of_octets hKept hKept' hAdmits hSame, fun hEqual => ?_⟩
        obtain rfl := hEqual ⟨_, ref, rfl, rfl, hAdmits⟩
        rw [(hKept.unique hKept').2]
      · refine iff_of_true (by rw [eq_of_not_admits hKept hKept' hAdmits]) ?_
        rintro ⟨r, ref', hRecord, hRef, hAdmits'⟩
        cases hRecord
        cases hRef
        exact absurd hAdmits' hAdmits

/-! ### Signing up with and without a cache -/

/-- What the server says to a new user, and then to one who logs in. -/
def bobAnswers : List (Call → Except Error Json) :=
  [fun _ => .ok (.object [("objectId", .string "u1"), ("createdAt", .string "2015-01-01T00:00:00.000Z")]),
    fun _ => .ok (.object [("objectId", .string "u1"), ("username", .string "bob"), ("sessionToken", .string "r:abc")])]

/-- A client that caches users for a minute, or none at all. -/
def beginner (windows : Fields Json) : Session Unit Unit where
  registry := { windows }
  server := bobAnswers
  app := ()

theorem ignoresPassword_bobAnswers : ∀ answer ∈ bobAnswers, IgnoresPassword answer := by
  intro answer hMem
  simp only [bobAnswers, List.mem_cons, List.not_mem_nil, or_false] at hMem
  rcases hMem with rfl | rfl <;> exact fun _ _ _ _ _ _ => rfl

/-- Without a cache for users, the blobs do not tell the passwords apart. -/
theorem signUp_octets_iff_uncached :
    (∀ answer ∈ (beginner []).server, IgnoresPassword answer) ∧ ∃ user user' t t',
      Runs (signUp (.string "bob") (.string "secret") []) (beginner []) (.ok user) t ∧
      Runs (signUp (.string "bob") (.string "hunter2") []) (beginner []) (.ok user') t' ∧
      t.disk.octets = t'.disk.octets := by
  have hServer : ∀ answer ∈ (beginner []).server, IgnoresPassword answer := ignoresPassword_bobAnswers
  have hRuns (password : String) : ∃ user t,
      Runs (signUp (.string "bob") (.string password) []) (beginner []) (.ok user) t := ⟨_, _, rfl⟩
  obtain ⟨user, t, hRun⟩ := hRuns "secret"
  obtain ⟨user', t', hRun'⟩ := hRuns "hunter2"
  refine ⟨hServer, user, user', t, t', hRun, hRun', (signUp_octets_iff hServer hRun hRun').mpr ?_⟩
  rintro ⟨_, _, _, -, hNone, -⟩
  cases hNone

/-- Users are cached for a minute. -/
def usersCached : Fields Json := [("_User", .int 60)]

def bob (password : String) : Record :=
  userRecord [("username", .string "bob")] [("objectId", .string "u1"),
    ("createdAt", .string "2015-01-01T00:00:00.000Z"), ("updatedAt", .string "2015-01-01T00:00:00.000Z")] password

/-- The client once the server has the new user. -/
def enrolled (windows : Fields Json) (password : String) : Session Unit Unit where
  registry := { windows }
  server := bobAnswers.tail
  calls := [.session .null, creation "_User" [("username", .string "bob"), ("password", .string password)]]
  app := ()

theorem runs_enroll_bob (windows : Fields Json) (password : String) :
    Runs (enroll (.string "bob") password []) (beginner windows) (.ok (bob password)) (enrolled windows password) := rfl

theorem exists_signUp_bob (password : String) : ∃ user t,
    Runs (signUp (.string "bob") (.string password) []) (beginner usersCached) (.ok user) t := by
  have hBears (key : String) : ({} : Disk).Bears "_User" key := Disk.bears_of_kind (by decide) _ _
  have hId : (bob password).objectId? = some "u1" := rfl
  have hPersist := LocalStore.runs_create (s := ⟨"_User", .int 60⟩) ⟨fun _ _ => rfl, rfl, hBears _⟩ hId rfl (hBears _)
    rfl
  have hKept : Runs (keepNew "_User" (bob password)) (enrolled usersCached password) (.ok ()) _ :=
    (runs_ownStore _ _).bind (runs_serve hPersist)
  rw [signUp_eq]
  exact ⟨_, _, (runs_enroll_bob _ password).bind (hKept.bind rfl)⟩

/-- With one, they do. -/
theorem not_sameOctets_cached :
    (∀ answer ∈ (beginner usersCached).server, IgnoresPassword answer) ∧ ∃ user user' t t',
      Runs (signUp (.string "bob") (.string "secret") []) (beginner usersCached) (.ok user) t ∧
      Runs (signUp (.string "bob") (.string "hunter2") []) (beginner usersCached) (.ok user') t' ∧
      t.disk.octets ≠ t'.disk.octets := by
  obtain ⟨user, t, hRun⟩ := exists_signUp_bob "secret"
  obtain ⟨user', t', hRun'⟩ := exists_signUp_bob "hunter2"
  refine ⟨ignoresPassword_bobAnswers, user, user', t, t', hRun, hRun', fun hSame => ?_⟩
  obtain ⟨_, hKept⟩ := leaves_of_signUp (runs_enroll_bob usersCached "secret") hRun
  obtain ⟨_, hKept'⟩ := leaves_of_signUp (runs_enroll_bob usersCached "hunter2") hRun'
  have hEqual : "secret" = "hunter2" := eq_of_octets hKept hKept' ⟨_, rfl⟩ hSame
  simp at hEqual

end Session

end RecordCache
