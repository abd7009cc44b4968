import RecordCache.Pattern

/-!
# The options of a pattern

Options for the whole pattern can be written only in front of it. Reading any other part leaves them as
they are (`Keeps`), whatever the part is.
-/

namespace RecordCache.Pattern.Parser

variable {α β : Type}

/-- Leaves the options of the whole pattern as they are. -/
def Keeps (m : Reading α) : Prop := ∀ s a s', m.run s = .ok (a, s') → s'.options = s.options

theorem Keeps.pure (a : α) : Keeps (Pure.pure a) := by
  intro s b s' h
  cases h
  rfl

theorem Keeps.bind {m : Reading α} {f : α → Reading β} (hm : Keeps m)
    (hf : ∀ a, Keeps (f a)) : Keeps (m >>= f) := by
  intro s b s' h
  rw [StateT.run_bind] at h
  cases hRun : m.run s with
  | error e =>
    rw [hRun] at h
    cases h
  | ok r =>
    rw [hRun] at h
    exact (hf r.1 r.2 b s' h).trans (hm s r.1 r.2 hRun)

theorem Keeps.throw (e : PatternFault) : Keeps (MonadExcept.throw e : Reading α) := by
  intro s a s' h
  cases h

theorem keeps_failure : Keeps (failure : Reading α) := Keeps.throw _

theorem Keeps.orFail {p : Prop} [Decidable p] {m : Reading α} (hm : Keeps m) :
    Keeps (if p then failure >>= fun _ : Unit => m else m) := by
  split
  · exact keeps_failure.bind fun _ => hm
  · exact hm

theorem keeps_get : Keeps (get : Reading Source) := by
  intro s a s' h
  cases h
  rfl

theorem keeps_modify {f : Source → Source}
    (hf : ∀ s, (f s).options = s.options) : Keeps (modify f : Reading Unit) := by
  intro s a s' h
  cases h
  exact hf s

/-- Leaves these options as they are, in a state that has them. -/
def KeepsAt (o : Options) (m : Reading α) : Prop :=
  ∀ s a s', s.options = o → m.run s = .ok (a, s') → s'.options = o

theorem Keeps.at {m : Reading α} (hm : Keeps m) (o : Options) : KeepsAt o m :=
  fun s a s' hs h => (hm s a s' h).trans hs

theorem KeepsAt.bind {o : Options} {m : Reading α} {f : α → Reading β} (hm : KeepsAt o m)
    (hf : ∀ a, KeepsAt o (f a)) : KeepsAt o (m >>= f) := by
  intro s b s' hs h
  rw [StateT.run_bind] at h
  cases hRun : m.run s with
  | error e =>
    rw [hRun] at h
    cases h
  | ok r =>
    rw [hRun] at h
    exact hf r.1 r.2 b s' (hm s r.1 r.2 hs hRun) h

theorem KeepsAt.choose {o : Options} {p : Prop} [Decidable p] {m m' : Reading α} {f : α → Reading β}
    (hm : KeepsAt o m) (hm' : KeepsAt o m') (hf : ∀ a, KeepsAt o (f a)) :
    KeepsAt o (if p then m >>= f else m' >>= f) := by
  split
  · exact hm.bind hf
  · exact hm'.bind hf

theorem keepsAt_set {o : Options} {s : Source} (hs : s.options = o) : KeepsAt o (set s : Reading Unit) := by
  intro _ a s' _ h
  cases h
  exact hs

theorem keeps_get_bind {f : Source → Reading α} (hf : ∀ o s, s.options = o → KeepsAt o (f s)) :
    Keeps (get >>= f) := fun s a s' h => hf s.options s rfl s a s' rfl h

/-! ### Tokens -/

theorem keeps_peek : Keeps peek := keeps_get.bind fun _ => .pure _

theorem keeps_next? : Keeps next? := by
  rw [next?]
  refine keeps_get.bind fun s => ?_
  split
  · dsimp only
    refine .orFail (Keeps.bind ?_ fun _ => .pure _)
    exact keeps_modify fun _ => rfl
  · exact .pure _

theorem keeps_next : Keeps next := by
  rw [next]
  refine keeps_next?.bind fun t => ?_
  split
  · exact .pure _
  · exact keeps_failure

theorem keeps_discard {m : Reading α} (hm : Keeps m) : Keeps (discard m) := hm.bind fun _ => .pure _

theorem keeps_accept (c : Char) : Keeps (accept c) := by
  rw [accept]
  refine keeps_peek.bind fun t => ?_
  split
  · exact (keeps_discard keeps_next?).bind fun _ => .pure _
  · exact .pure _

theorem keeps_expect (c : Char) : Keeps (expect c) := by
  rw [expect]
  refine (keeps_accept c).bind fun found => ?_
  split
  · exact keeps_failure
  · exact .pure _

theorem keeps_takeWhile (test : Char → Bool) : ∀ most, Keeps (takeWhile test most)
  | 0 => .pure _
  | most + 1 => by
    rw [takeWhile]
    refine keeps_peek.bind fun t => ?_
    split
    · split
      · exact (keeps_discard keeps_next?).bind fun _ => (keeps_takeWhile test most).bind fun _ => .pure _
      · exact .pure _
    · exact .pure _

theorem keeps_readUntil (stop : Char) : ∀ fuel, Keeps (readUntil stop fuel)
  | 0 => keeps_failure
  | fuel + 1 => by
    rw [readUntil]
    refine keeps_next.bind fun t => ?_
    split
    · split
      · exact .pure _
      · exact (keeps_readUntil stop fuel).bind fun _ => .pure _
    · exact keeps_failure

theorem keeps_skipUntil (stop : Token) : ∀ fuel, Keeps (skipUntil stop fuel)
  | 0 => keeps_failure
  | fuel + 1 => by
    rw [skipUntil]
    refine keeps_next.bind fun t => ?_
    split
    · exact .pure _
    · exact keeps_skipUntil stop fuel

theorem keeps_remaining : Keeps remaining := keeps_get.bind fun _ => .pure _

theorem keeps_letterRun : ∀ fuel, Keeps (letterRun fuel)
  | 0 => keeps_failure
  | fuel + 1 => by
    rw [letterRun]
    refine keeps_get.bind fun s => keeps_next.bind fun t => ?_
    split
    · split
      · exact (keeps_letterRun fuel).bind fun _ => .pure _
      · exact .pure _
    · exact keeps_failure

theorem keeps_skipComment : ∀ fuel, Keeps (skipComment fuel)
  | 0 => .pure _
  | fuel + 1 => by
    rw [skipComment]
    refine keeps_next?.bind fun t => ?_
    split
    · exact .pure _
    · split
      · exact .pure _
      · exact keeps_skipComment fuel

/-! ### Characters -/

theorem keeps_codeOf (n : Nat) : Keeps (codeOf n) := by
  rw [codeOf]
  split
  · exact .pure _
  · exact keeps_failure

theorem keeps_hexCode (width : Nat) : Keeps (hexCode width) := by
  rw [hexCode]
  refine (keeps_takeWhile _ _).bind fun ds => ?_
  split
  · exact keeps_codeOf _
  · exact keeps_failure

theorem keeps_octalCode (ds : List Char) : Keeps (octalCode ds) := by
  rw [octalCode]
  split
  · exact keeps_failure
  · exact .pure _

theorem keeps_plainEscape (c : Char) : Keeps (plainEscape c) := by
  rw [plainEscape]
  refine keeps_get.bind fun s => ?_
  dsimp only
  split
  · exact keeps_hexCode _
  · exact keeps_hexCode _
  · exact keeps_hexCode _
  · split
    · exact keeps_failure
    · exact .pure _

theorem keeps_setEscape (c : Char) : Keeps (setEscape c) := by
  rw [setEscape]
  split
  · exact .pure _
  · exact .pure _
  · split
    · exact .pure _
    · split
      · exact (keeps_takeWhile _ _).bind fun _ => (keeps_octalCode _).bind fun _ => .pure _
      · split
        · exact keeps_failure
        · exact (keeps_plainEscape _).bind fun _ => .pure _

theorem keeps_setItem (t : Token) : Keeps (setItem t) := by
  cases t
  · exact .pure _
  · exact keeps_setEscape _
  · exact keeps_failure

theorem keeps_setItems : ∀ fuel seen, Keeps (setItems fuel seen)
  | 0, _ => keeps_failure
  | fuel + 1, seen => by
    rw [setItems]
    refine keeps_next.bind fun t => ?_
    split
    · exact .pure _
    · refine (keeps_setItem t).bind fun first => (keeps_accept _).bind fun dash => ?_
      split
      · refine keeps_next.bind fun u => ?_
        split
        · exact .pure _
        · refine (keeps_setItem u).bind fun last => ?_
          split
          · dsimp only
            exact .orFail (keeps_setItems fuel _)
          · exact keeps_failure
      · exact keeps_setItems fuel _

theorem keeps_charSet (o : Options) : Keeps (charSet o) := by
  rw [charSet]
  refine (keeps_accept _).bind fun negated => keeps_remaining.bind fun n =>
    (keeps_setItems n []).bind fun items => ?_
  split
  · exact .pure _
  · exact .pure _

/-! ### Groups -/

theorem keeps_openGroup (name : Option String) : Keeps (openGroup name) := by
  rw [openGroup]
  refine keeps_get_bind fun o s hs => ?_
  have hOpen (groups : Nat) (names : List (String × Nat)) (index : Nat) :
      KeepsAt o (set { s with groups, names } >>= fun _ : Unit => (Pure.pure index : Reading Nat)) :=
    KeepsAt.bind (keepsAt_set (by exact hs)) fun _ => (Keeps.pure _).at o
  dsimp only
  split
  · split
    · exact (keeps_failure.at o).bind fun _ => hOpen _ _ _
    · exact hOpen _ _ _
  · exact hOpen _ _ _

theorem keeps_closeGroup (index : Nat) (body : Node) :
    Keeps (closeGroup index body) := keeps_modify fun _ => rfl

theorem keeps_checkBehind (index : Nat) : Keeps (checkBehind index) := by
  rw [checkBehind]
  refine keeps_get.bind fun s => ?_
  split
  · split
    · exact keeps_failure
    · exact .pure _
  · exact .pure _

theorem keeps_reference (o : Options) (index : Nat) : Keeps (reference o index) := by
  rw [reference]
  refine keeps_get.bind fun s => ?_
  split
  · exact (keeps_checkBehind _).bind fun _ => .pure _
  · exact keeps_failure

theorem keeps_groupName (stop : Char) : Keeps (groupName stop) := by
  rw [groupName]
  refine keeps_remaining.bind fun n => (keeps_readUntil _ _).bind fun name => ?_
  split
  · exact .pure _
  · exact keeps_failure

theorem keeps_namedIndex (name : String) : Keeps (namedIndex name) := by
  rw [namedIndex]
  refine keeps_get.bind fun s => ?_
  split
  · exact .pure _
  · exact keeps_failure

theorem keeps_conditionIndex : Keeps conditionIndex := by
  rw [conditionIndex]
  refine keeps_remaining.bind fun n => (keeps_readUntil _ _).bind fun name => ?_
  split
  · exact keeps_namedIndex _
  · split
    · exact keeps_failure
    · refine Keeps.bind ?_ fun _ => .pure _
      exact keeps_modify fun _ => rfl

theorem keeps_numbered (o : Options) (d : Char) : Keeps (numbered o d) := by
  rw [numbered]
  refine (keeps_takeWhile _ _).bind fun second => ?_
  dsimp only
  split
  · refine (keeps_takeWhile _ _).bind fun third => ?_
    split
    · exact (keeps_octalCode _).bind fun _ => .pure _
    · exact keeps_reference _ _
  · exact keeps_reference _ _

theorem keeps_escape (o : Options) (c : Char) : Keeps (escape o c) := by
  rw [escape]
  split
  · exact .pure _
  · exact .pure _
  · exact .pure _
  · split
    · exact (keeps_takeWhile _ _).bind fun _ => .pure _
    · split
      · exact keeps_numbered _ _
      · exact (keeps_plainEscape _).bind fun _ => .pure _

/-! ### Repetitions -/

theorem keeps_bound (ds : List Char) : Keeps (bound ds) := by
  rw [bound]
  split
  · exact .throw _
  · exact .pure _

theorem keeps_bounds? : Keeps bounds? := by
  rw [bounds?]
  refine keeps_get_bind fun o start hStart => ?_
  refine (keeps_remaining.at o).bind fun all => ((keeps_takeWhile _ _).at o).bind fun low => ?_
  refine ((keeps_accept _).at o).bind fun comma => ?_
  refine .choose ((keeps_takeWhile _ _).at o) ((Keeps.pure _).at o) fun high => ?_
  refine ((keeps_accept _).at o).bind fun closed => ?_
  split
  · exact (keepsAt_set hStart).bind fun _ => (Keeps.pure _).at o
  · refine .choose ((Keeps.pure _).at o) ((keeps_bound _).at o) fun least => ?_
    split
    · exact (Keeps.pure _).at o
    · exact ((keeps_bound _).bind fun most => .orFail (.pure _)).at o

theorem keeps_repetition? (t : Token) : Keeps (repetition? t) := by
  unfold repetition?
  split
  · exact .pure _
  · exact .pure _
  · exact .pure _
  · exact keeps_bounds?
  · exact .pure _

theorem keeps_eagerness : Keeps eagerness := by
  rw [eagerness]
  refine (keeps_accept _).bind fun lazy => ?_
  split
  · exact .pure _
  · refine (keeps_accept _).bind fun possessive => ?_
    split
    · exact .pure _
    · exact .pure _

theorem keeps_repeatLast (bounds : Nat × Option Nat) (seen : List Piece) :
    Keeps (repeatLast bounds seen) := by
  cases seen with
  | nil => exact keeps_failure
  | cons last rest =>
    rw [repeatLast]
    dsimp only
    exact .orFail (keeps_eagerness.bind fun _ => .pure _)

/-! ### Options -/

theorem run_bind_eq_ok {m : Reading α} {f : α → Reading β} {s : Source} {r : β × Source} :
    (m >>= f).run s = .ok r ↔ ∃ a s₁, m.run s = .ok (a, s₁) ∧ (f a).run s₁ = .ok r := by
  rw [StateT.run_bind]
  cases hRun : m.run s with
  | error e => simp [bind, Except.bind]
  | ok r =>
    constructor
    · exact fun h => ⟨r.1, r.2, rfl, h⟩
    · rintro ⟨a, s₁, hEq, h⟩
      cases hEq
      exact h

theorem run_orThrow_eq_ok {e : PatternFault} {p : Prop} [Decidable p] {m : Reading α} {s : Source}
    {r : α × Source} :
    (if p then (throw e : Reading Unit) >>= fun _ => m else m).run s = .ok r ↔ ¬p ∧ m.run s = .ok r := by
  split
  · next hp =>
    constructor
    · intro h
      cases h
    · exact fun h => absurd hp h.1
  · next hp => exact (and_iff_right hp).symm

theorem run_orFail_eq_ok {p : Prop} [Decidable p] {m : Reading α} {s : Source} {r : α × Source} :
    (if p then failure >>= fun _ : Unit => m else m).run s = .ok r ↔ ¬p ∧ m.run s = .ok r :=
  run_orThrow_eq_ok

theorem run_optionsChange {o : Options} {s s' : Source} {r : Bool × Options}
    (h : (optionsChange o).run s = .ok (r, s')) :
    r.1 = false ∧ s'.options = s.options ∨
      ∃ on s₁, (remaining >>= letterRun).run s = .ok ((on, ')'), s₁) ∧
        (kindLetters.filter on.contains).length ≤ 1 ∧ on.isEmpty = false ∧
        s' = { s₁ with
          options := setOptions true s₁.options (on.filter (· != 'u'))
          wide := s₁.wide || on.contains 'u' } ∧ r = (true, s'.options) := by
  rw [optionsChange] at h
  obtain ⟨n, s₀, hRemaining, h⟩ := run_bind_eq_ok.mp h
  obtain ⟨⟨on, stop⟩, s₁, hLetters, h⟩ := run_bind_eq_ok.mp h
  have hRun : (remaining >>= letterRun).run s = .ok ((on, stop), s₁) :=
    run_bind_eq_ok.mpr ⟨_, _, hRemaining, hLetters⟩
  have hOptions : s₁.options = s.options := (keeps_remaining.bind keeps_letterRun) _ _ _ hRun
  obtain ⟨hKinds, h⟩ := run_orFail_eq_ok.mp h
  dsimp only at h
  split at h
  · obtain ⟨hSome, h⟩ := run_orFail_eq_ok.mp h
    cases h
    exact .inr ⟨on, s₁, hRun, by omega, by simpa using hSome, rfl, rfl⟩
  · split at h
    · cases h
    · cases h
      exact .inl ⟨rfl, hOptions⟩
  · obtain ⟨n', s₂, hRemaining', h⟩ := run_bind_eq_ok.mp h
    obtain ⟨⟨off, stop'⟩, s₃, hLetters', h⟩ := run_bind_eq_ok.mp h
    have hRun' : (remaining >>= letterRun).run s₁ = .ok ((off, stop'), s₃) :=
      run_bind_eq_ok.mpr ⟨_, _, hRemaining', hLetters'⟩
    obtain ⟨-, h⟩ := run_orFail_eq_ok.mp h
    cases h
    exact .inl ⟨rfl, ((keeps_remaining.bind keeps_letterRun) _ _ _ hRun').trans hOptions⟩
  · cases h

/-! ### Parts -/

/-- Leaves the options of the whole pattern as they are, when the result is of this kind. -/
def KeepsWhen (test : α → Bool) (m : Reading α) : Prop :=
  ∀ s a s', m.run s = .ok (a, s') → test a = true → s'.options = s.options

theorem Keeps.when {m : Reading α} (hm : Keeps m) (test : α → Bool) : KeepsWhen test m :=
  fun s a s' h _ => hm s a s' h

theorem Keeps.bindWhen {test : β → Bool} {m : Reading α} {f : α → Reading β} (hm : Keeps m)
    (hf : ∀ a, KeepsWhen test (f a)) : KeepsWhen test (m >>= f) := by
  intro s b s' h hTest
  obtain ⟨a, s₁, hRun, hRest⟩ := run_bind_eq_ok.mp h
  exact (hf a s₁ b s' hRest hTest).trans (hm s a s₁ hRun)

/-- Either not in front of the pattern, or something was read that is no option. -/
def isPart (leading : Bool) (r : Option Piece × Options) : Bool := !leading || r.1.isSome

/-- Every part leaves the options as they are, up to a depth. -/
structure KeepsTo (fuel : Nat) : Prop where
  branches (o : Options) : Keeps (branches fuel false o)
  otherBranches (outer : Bool) (o : Options) : Keeps (otherBranches fuel outer o)
  branch (o : Options) : Keeps (branch fuel false o)
  pieces {leading : Bool} {seen : List Piece} (h : leading = false ∨ seen ≠ []) (o : Options) :
    Keeps (pieces fuel leading o seen)
  piece (leading : Bool) (o : Options) (t : Token) : KeepsWhen (isPart leading) (piece fuel leading o t)
  capturing (o : Options) (name : Option String) : Keeps (capturing fuel o name)
  extension (leading : Bool) (o : Options) : KeepsWhen (isPart leading) (extension fuel leading o)
  behind (o : Options) : Keeps (behind fuel o)
  conditional (o : Options) : Keeps (conditional fuel o)
  enclosed (o : Options) : Keeps (enclosed fuel o)

theorem KeepsTo.zero : KeepsTo 0 where
  branches _ := keeps_failure
  otherBranches _ _ := keeps_failure
  branch _ := keeps_failure
  pieces _ _ := keeps_failure
  piece _ _ _ := keeps_failure.when _
  capturing _ _ := keeps_failure
  extension _ _ := keeps_failure.when _
  behind _ := keeps_failure
  conditional _ := keeps_failure
  enclosed _ := keeps_failure

theorem run_repeatLast_ne_nil {bounds : Nat × Option Nat} {seen pieces : List Piece} {s s' : Source}
    (h : (repeatLast bounds seen).run s = .ok (pieces, s')) : seen ≠ [] ∧ pieces ≠ [] := by
  cases seen with
  | nil => cases h
  | cons last rest =>
    rw [repeatLast] at h
    obtain ⟨-, h⟩ := run_orFail_eq_ok.mp h
    obtain ⟨_, _, -, h⟩ := run_bind_eq_ok.mp h
    cases h
    exact ⟨List.cons_ne_nil _ _, List.cons_ne_nil _ _⟩

namespace KeepsTo

variable {fuel : Nat} (h : KeepsTo fuel)
include h

theorem branches_succ (o : Options) : Keeps (Parser.branches (fuel + 1) false o) := by
  rw [Parser.branches]
  exact (h.branch o).bind fun first => (h.otherBranches false o).bind fun rest => .pure _

theorem otherBranches_succ (outer : Bool) (o : Options) :
    Keeps (Parser.otherBranches (fuel + 1) outer o) := by
  rw [Parser.otherBranches]
  refine (keeps_accept _).bind fun more => ?_
  split
  · exact keeps_get.bind fun s => (h.branch _).bind fun b => (h.otherBranches _ _).bind fun _ => .pure _
  · exact .pure _

theorem branch_succ (o : Options) : Keeps (Parser.branch (fuel + 1) false o) := by
  rw [Parser.branch]
  exact (h.pieces (.inl rfl) o).bind fun _ => .pure _

theorem pieces_succ {leading : Bool} {seen : List Piece} (hLeading : leading = false ∨ seen ≠ [])
    (o : Options) :
    Keeps (Parser.pieces (fuel + 1) leading o seen) := by
  have hInside : (leading && seen.isEmpty) = false := by
    rcases hLeading with rfl | hSeen
    · rfl
    · rw [List.isEmpty_eq_false_iff.mpr hSeen, Bool.and_false]
  rw [Parser.pieces]
  refine keeps_peek.bind fun next => ?_
  split
  · exact .pure _
  · exact .pure _
  · exact .pure _
  · next t _ _ =>
    refine (keeps_discard keeps_next?).bind fun _ => ?_
    split
    · exact h.pieces hLeading o
    · split
      · exact keeps_remaining.bind fun n => (keeps_skipComment n).bind fun _ => h.pieces hLeading o
      · refine (keeps_repetition? t).bind fun bounds => ?_
        split
        · intro s ps s' hRun
          obtain ⟨pieces, s₁, hRepeat, hRest⟩ := run_bind_eq_ok.mp hRun
          have hPieces := (run_repeatLast_ne_nil hRepeat).2
          exact (h.pieces (.inr hPieces) o _ _ _ hRest).trans (keeps_repeatLast _ _ _ _ _ hRepeat)
        · rw [hInside]
          refine Keeps.bind (fun s r s' hRun => h.piece false o t s r s' hRun rfl) fun r => ?_
          dsimp only
          split
          · exact h.pieces (.inr (List.cons_ne_nil _ _)) o
          · exact h.pieces hLeading _

theorem piece_succ (leading : Bool) (o : Options) (t : Token) :
    KeepsWhen (isPart leading) (Parser.piece (fuel + 1) leading o t) := by
  unfold Parser.piece
  dsimp only
  split
  · exact ((keeps_escape _ _).bind fun _ => .pure _).when _
  · exact ((keeps_charSet _).bind fun _ => .pure _).when _
  · exact (Keeps.pure _).when _
  · exact (Keeps.pure _).when _
  · exact (Keeps.pure _).when _
  · refine (keeps_accept _).bindWhen fun question => ?_
    split
    · exact h.extension leading o
    · exact ((h.capturing o none).bind fun _ => .pure _).when _
  · exact (Keeps.pure _).when _
  · exact keeps_failure.when _

theorem capturing_succ (o : Options) (name : Option String) :
    Keeps (Parser.capturing (fuel + 1) o name) := by
  rw [Parser.capturing]
  exact (keeps_openGroup name).bind fun index => (h.enclosed o).bind fun body =>
    (keeps_closeGroup _ _).bind fun _ => .pure _

theorem behind_succ (o : Options) : Keeps (Parser.behind (fuel + 1) o) := by
  rw [Parser.behind]
  refine keeps_get.bind fun s => Keeps.bind ?_ fun _ => (h.enclosed o).bind fun body =>
    Keeps.bind ?_ fun _ => .pure _
  · exact keeps_modify fun _ => rfl
  · exact keeps_modify fun _ => rfl

theorem conditional_succ (o : Options) : Keeps (Parser.conditional (fuel + 1) o) := by
  rw [Parser.conditional]
  refine keeps_conditionIndex.bind fun index => (keeps_checkBehind _).bind fun _ =>
    (h.branch o).bind fun yes =>
    (keeps_accept _).bind fun more => ?_
  have hEnd (no : List Node) : Keeps (expect ')' >>= fun _ =>
      (Pure.pure (.given index (Node.ofList yes) (Node.ofList no)) : Reading Node)) :=
    (keeps_expect _).bind fun _ => .pure _
  split
  · exact (h.branch o).bind hEnd
  · exact (Keeps.pure _).bind hEnd

theorem enclosed_succ (o : Options) : Keeps (Parser.enclosed (fuel + 1) o) := by
  rw [Parser.enclosed]
  exact (h.branches o).bind fun body => (keeps_expect _).bind fun _ => .pure _

/-- Options for the whole pattern are no part, and there is no place for them further on. -/
theorem optionsGroup_keeps (leading : Bool) (o : Options) :
    KeepsWhen (isPart leading) (optionsChange o >>= fun (whole, changed) =>
      if whole then
        if leading then (Pure.pure (none, changed) : Reading (Option Piece × Options)) else failure
      else do
        let body ← Parser.enclosed fuel changed
        Pure.pure (some (.part (.seq (Node.ofList body) .empty)), o)) := by
  intro s r s' hRun hTest
  obtain ⟨⟨whole, changed⟩, s₁, hChange, hRest⟩ := run_bind_eq_ok.mp hRun
  dsimp only at hRest
  rcases run_optionsChange hChange with ⟨hWhole, hOptions⟩ | ⟨_, _, -, -, -, -, hWhole⟩
  · cases hWhole
    exact (((h.enclosed changed).bind fun _ => .pure _) s₁ r s' hRest).trans hOptions
  · cases hWhole
    rw [if_pos rfl] at hRest
    cases leading with
    | false => cases hRest
    | true =>
      cases hRest
      cases hTest

theorem extension_succ (leading : Bool) (o : Options) :
    KeepsWhen (isPart leading) (Parser.extension (fuel + 1) leading o) := by
  rw [Parser.extension]
  refine keeps_next.bindWhen fun t => ?_
  have hEnclosed (make : List Node → Option Piece × Options) :
      Keeps (Parser.enclosed fuel o >>= fun body => Pure.pure (make body)) :=
    (h.enclosed o).bind fun _ => .pure _
  have hBehind (make : List Node → Option Piece × Options) :
      Keeps (Parser.behind fuel o >>= fun body => Pure.pure (make body)) :=
    (h.behind o).bind fun _ => .pure _
  dsimp only
  split
  · refine (keeps_accept _).bindWhen fun named => ?_
    split
    · exact ((keeps_groupName _).bind fun name => (h.capturing o _).bind fun _ => .pure _).when _
    · exact ((keeps_expect _).bind fun _ => (keeps_groupName _).bind fun name =>
        (keeps_namedIndex _).bind fun index =>
        (keeps_reference o _).bind fun _ => .pure _).when _
  · exact (hEnclosed _).when _
  · exact (keeps_remaining.bind fun n => (keeps_skipUntil _ n).bind fun _ => .pure _).when _
  · exact (hEnclosed _).when _
  · exact (hEnclosed _).when _
  · refine keeps_next.bindWhen fun u => ?_
    split
    · exact (hBehind _).when _
    · exact (hBehind _).when _
    · exact keeps_failure.when _
  · exact ((h.conditional o).bind fun _ => .pure _).when _
  · exact (hEnclosed _).when _
  · refine Keeps.bindWhen (keeps_modify fun _ => rfl) fun _ => ?_
    exact h.optionsGroup_keeps leading o

theorem succ : KeepsTo (fuel + 1) where
  branches := h.branches_succ
  otherBranches := h.otherBranches_succ
  branch := h.branch_succ
  pieces := h.pieces_succ
  piece := h.piece_succ
  capturing := h.capturing_succ
  extension := h.extension_succ
  behind := h.behind_succ
  conditional := h.conditional_succ
  enclosed := h.enclosed_succ

end KeepsTo

theorem keepsTo : ∀ fuel, KeepsTo fuel
  | 0 => .zero
  | fuel + 1 => (keepsTo fuel).succ

end RecordCache.Pattern.Parser
