import RecordCache.Proofs.Except
import RecordCache.Proofs.Pattern.Options

/-!
# Patterns read back

A pattern that was read from a text is the pattern that is read from the text again with the letters of
its options: options that were written in front of the text are in force already when they are met again.
-/

namespace RecordCache.Pattern

namespace Options

/-- Every option of the first is one of the second. -/
structure Within (o o' : Options) : Prop where
  ignoreCase : o.ignoreCase = true → o'.ignoreCase = true
  multiline : o.multiline = true → o'.multiline = true
  dotAll : o.dotAll = true → o'.dotAll = true
  verbose : o.verbose = true → o'.verbose = true
  ascii : o.ascii = true → o'.ascii = true

theorem Within.refl (o : Options) : Within o o := ⟨id, id, id, id, id⟩

theorem Within.trans {o o' o'' : Options} (h : Within o o') (h' : Within o' o'') : Within o o'' :=
  ⟨h'.1 ∘ h.1, h'.2 ∘ h.2, h'.3 ∘ h.3, h'.4 ∘ h.4, h'.5 ∘ h.5⟩

theorem Within.antisymm {o o' : Options} (h : Within o o') (h' : Within o' o) : o = o' := by
  obtain ⟨i, m, s, x, a⟩ := o
  obtain ⟨i', m', s', x', a'⟩ := o'
  rw [mk.injEq]
  exact ⟨Bool.eq_iff_iff.mpr ⟨h.1, h'.1⟩, Bool.eq_iff_iff.mpr ⟨h.2, h'.2⟩, Bool.eq_iff_iff.mpr ⟨h.3, h'.3⟩,
    Bool.eq_iff_iff.mpr ⟨h.4, h'.4⟩, Bool.eq_iff_iff.mpr ⟨h.5, h'.5⟩⟩

end Options

namespace Parser

open Options (Within)

/-! ### Adding options -/

theorem within_setOption (o : Options) {c : Char} (hc : c ≠ 'u') : Within o (setOption true o c) := by
  unfold setOption
  split <;> constructor <;> simp_all

theorem setOption_mono {o o' : Options} (h : Within o o') (c : Char) :
    Within (setOption true o c) (setOption true o' c) := by
  obtain ⟨hIgnoreCase, hMultiline, hDotAll, hVerbose, hAscii⟩ := h
  unfold setOption
  split <;> constructor <;> simp_all

theorem setOption_within {o o₂ O : Options} {c : Char} (hc : c ≠ 'u') (h : Within o₂ O)
    (hAdded : Within (setOption true o c) O) : Within (setOption true o₂ c) O := by
  obtain ⟨hIgnoreCase, hMultiline, hDotAll, hVerbose, hAscii⟩ := h
  obtain ⟨hIgnoreCase', hMultiline', hDotAll', hVerbose', hAscii'⟩ := hAdded
  unfold setOption at *
  split <;> constructor <;> simp_all

theorem within_setOptions (o : Options) {letters : List Char} (h : ∀ c ∈ letters, c ≠ 'u') :
    Within o (setOptions true o letters) := by
  induction letters generalizing o with
  | nil => exact .refl o
  | cons c rest ih =>
    obtain ⟨hc, hRest⟩ := List.forall_mem_cons.mp h
    exact (within_setOption o hc).trans (ih (setOption true o c) hRest)

/-- Options that some options were to have can be added within them, and then nothing is missing. -/
theorem setOptions_between {o o₂ O : Options} {letters : List Char} (hLetters : ∀ c ∈ letters, c ≠ 'u')
    (hLow : Within o o₂) (hHigh : Within o₂ O) (hAdded : Within (setOptions true o letters) O) :
    Within (setOptions true o letters) (setOptions true o₂ letters) ∧
      Within (setOptions true o₂ letters) O := by
  induction letters generalizing o o₂ with
  | nil => exact ⟨hLow, hHigh⟩
  | cons c rest ih =>
    obtain ⟨hc, hRest⟩ := List.forall_mem_cons.mp hLetters
    have hFirst : Within (setOption true o c) O := (within_setOptions _ hRest).trans hAdded
    exact ih hRest (setOption_mono hLow c) (setOption_within hc hHigh hFirst) hAdded

/-! ### Reading with other options -/

variable {α β : Type}

def Source.withOptions (s : Source) (o : Options) : Source := { s with options := o }

/-- Does the same whatever the options of the whole pattern are. -/
def Blind (m : Reading α) : Prop :=
  ∀ s a s', m.run s = .ok (a, s') → ∀ o, m.run (s.withOptions o) = .ok (a, s'.withOptions o)

theorem Blind.pure (a : α) : Blind (Pure.pure a) := by
  intro s b s' h o
  cases h
  rfl

theorem Blind.bind {m : Reading α} {f : α → Reading β} (hm : Blind m)
    (hf : ∀ a, Blind (f a)) : Blind (m >>= f) := by
  intro s b s' h o
  obtain ⟨a, s₁, hRun, hRest⟩ := run_bind_eq_ok.mp h
  exact run_bind_eq_ok.mpr ⟨a, s₁.withOptions o, hm s a s₁ hRun o, hf a s₁ b s' hRest o⟩

theorem blind_failure : Blind (failure : Reading α) := by
  intro s a s' h
  cases h

theorem blind_get_bind {f : Source → Reading α}
    (hf : ∀ s o, f (s.withOptions o) = f s) (hBlind : ∀ s, Blind (f s)) :
    Blind (get >>= f) := by
  intro s a s' h o
  change (f (s.withOptions o)).run (s.withOptions o) = _
  rw [hf]
  exact hBlind s s a s' h o

theorem blind_modify {f : Source → Source} (hf : ∀ s o, f (s.withOptions o) = (f s).withOptions o) :
    Blind (modify f : Reading Unit) := by
  intro s a s' h o
  cases h
  change Except.ok ((), f (s.withOptions o)) = _
  rw [hf]

theorem blind_peek : Blind peek := blind_get_bind (fun _ _ => rfl) fun _ => .pure _

theorem blind_next? : Blind next? := by
  rw [next?]
  refine blind_get_bind (fun _ _ => rfl) fun s => ?_
  split
  · dsimp only
    have hRest (rest : List Token) (t : Token) : Blind (do
        modify fun s => { s with rest }
        Pure.pure (some t) : Reading (Option Token)) := (blind_modify fun _ _ => rfl).bind fun _ => .pure _
    split
    · exact blind_failure.bind fun _ => hRest _ _
    · exact hRest _ _
  · exact .pure _

theorem blind_next : Blind next := by
  rw [next]
  refine blind_next?.bind fun t => ?_
  split
  · exact .pure _
  · exact blind_failure

theorem blind_discard {m : Reading α} (hm : Blind m) : Blind (discard m) := hm.bind fun _ => .pure _

theorem blind_accept (c : Char) : Blind (accept c) := by
  rw [accept]
  refine blind_peek.bind fun t => ?_
  split
  · exact (blind_discard blind_next?).bind fun _ => .pure _
  · exact .pure _

theorem blind_remaining : Blind remaining := blind_get_bind (fun _ _ => rfl) fun _ => .pure _

theorem blind_skipUntil (stop : Token) : ∀ fuel, Blind (skipUntil stop fuel)
  | 0 => blind_failure
  | fuel + 1 => by
    rw [skipUntil]
    refine blind_next.bind fun t => ?_
    split
    · exact .pure _
    · exact blind_skipUntil stop fuel

theorem blind_skipComment : ∀ fuel, Blind (skipComment fuel)
  | 0 => .pure _
  | fuel + 1 => by
    rw [skipComment]
    refine blind_next?.bind fun t => ?_
    split
    · exact .pure _
    · split
      · exact .pure _
      · exact blind_skipComment fuel

theorem blind_letterRun : ∀ fuel, Blind (letterRun fuel)
  | 0 => blind_failure
  | fuel + 1 => by
    rw [letterRun]
    refine blind_get_bind (fun _ _ => rfl) fun s => blind_next.bind fun t => ?_
    split
    · split
      · exact (blind_letterRun fuel).bind fun _ => .pure _
      · exact .pure _
    · exact blind_failure

/-! ### Reading again -/

/-- What follows options that were read: they are in force, and read with more options to begin with, the
outcome is the same but for those. -/
def Resumes (m : Options → Reading (Option Piece × Options)) : Prop :=
  ∀ s changed s', (m s.options).run s = .ok ((none, changed), s') →
    changed = s'.options ∧ Within s.options s'.options ∧
      ∀ o₂ O, Within s.options o₂ → Within o₂ O → Within s'.options O →
        ∃ o₃, Within s'.options o₃ ∧ Within o₃ O ∧
          (m o₂).run (s.withOptions o₂) = .ok ((none, o₃), s'.withOptions o₃)

theorem optionsChange_again {o changed : Options} {s s' : Source}
    (h : (optionsChange o).run s = .ok ((true, changed), s')) :
    changed = s'.options ∧ Within s.options s'.options ∧
      ∀ o' o₂ O, Within s.options o₂ → Within o₂ O → Within s'.options O →
        ∃ o₃, Within s'.options o₃ ∧ Within o₃ O ∧
          (optionsChange o').run (s.withOptions o₂) = .ok ((true, o₃), s'.withOptions o₃) := by
  rcases run_optionsChange h with ⟨hWhole, -⟩ | ⟨on, s₁, hLetters, hKinds, hSome, rfl, hResult⟩
  · cases hWhole
  · cases hResult
    have hOptions : s₁.options = s.options := (keeps_remaining.bind keeps_letterRun) _ _ _ hLetters
    have hOn : ∀ c ∈ on.filter (· != 'u'), c ≠ 'u' := by
      intro c hc
      simpa using (List.mem_filter.mp hc).2
    refine ⟨rfl, ?_, fun o' o₂ O hLow hHigh hAll => ?_⟩
    · rw [← hOptions]
      exact within_setOptions _ hOn
    · dsimp only at hAll
      rw [hOptions] at hAll
      obtain ⟨hAdded, hWithin⟩ := setOptions_between hOn hLow hHigh hAll
      refine ⟨setOptions true o₂ (on.filter (· != 'u')), ?_, hWithin, ?_⟩
      · dsimp only
        rw [hOptions]
        exact hAdded
      · have hBlind := (blind_remaining.bind blind_letterRun) _ _ _ hLetters o₂
        obtain ⟨n, s₀, hRemaining, hRun⟩ := run_bind_eq_ok.mp hBlind
        rw [optionsChange]
        refine run_bind_eq_ok.mpr ⟨n, s₀, hRemaining, run_bind_eq_ok.mpr ⟨_, _, hRun, ?_⟩⟩
        refine run_orFail_eq_ok.mpr ⟨by omega, run_orFail_eq_ok.mpr ⟨?_, rfl⟩⟩
        rw [hSome]
        exact Bool.false_ne_true

/-- Whatever is read is a part. -/
def Finds (m : Reading (Option Piece × Options)) : Prop :=
  ∀ s r s', m.run s = .ok (r, s') → r.1.isSome = true

theorem Finds.pure (p : Piece) (o : Options) : Finds (Pure.pure (some p, o)) := by
  intro s r s' h
  cases h
  rfl

theorem Finds.bind {m : Reading α} {f : α → Reading (Option Piece × Options)} (hf : ∀ a, Finds (f a)) :
    Finds (m >>= f) := by
  intro s r s' h
  obtain ⟨a, s₁, -, hRest⟩ := run_bind_eq_ok.mp h
  exact hf a s₁ r s' hRest

theorem Finds.absurd {m : Reading (Option Piece × Options)} (hm : Finds m) {s s' : Source} {o : Options}
    (h : m.run s = .ok ((none, o), s')) : False := Bool.false_ne_true (hm s _ s' h)

theorem extension_resumes (fuel : Nat) : Resumes (extension fuel true) := by
  intro s changed s' h
  cases fuel with
  | zero => cases h
  | succ fuel =>
    rw [extension] at h
    obtain ⟨t, s₁, hNext, h⟩ := run_bind_eq_ok.mp h
    have hOptions : s₁.options = s.options := keeps_next _ _ _ hNext
    dsimp only at h
    -- of all that can follow the question mark, only a comment and options are no part
    split at h
    · obtain ⟨named, s₂, -, h⟩ := run_bind_eq_ok.mp h
      split at h
      · exact ((Finds.bind fun _ => .bind fun _ => .pure _ _).absurd h).elim
      · exact ((Finds.bind fun _ => .bind fun _ => .bind fun _ => .bind fun _ => .pure _ _).absurd h).elim
    · exact ((Finds.bind fun _ => .pure _ _).absurd h).elim
    · obtain ⟨n, s₂, hRemaining, h⟩ := run_bind_eq_ok.mp h
      obtain ⟨u, s₃, hSkip, h⟩ := run_bind_eq_ok.mp h
      cases h
      have hKept : s'.options = s.options :=
        ((keeps_skipUntil _ _ _ _ _ hSkip).trans (keeps_remaining _ _ _ hRemaining)).trans hOptions
      refine ⟨hKept.symm, hKept ▸ .refl _, fun o₂ O hLow hHigh _ => ⟨o₂, hKept ▸ hLow, hHigh, ?_⟩⟩
      rw [extension]
      refine run_bind_eq_ok.mpr ⟨_, _, blind_next _ _ _ hNext o₂, ?_⟩
      refine run_bind_eq_ok.mpr ⟨n, _, blind_remaining _ _ _ hRemaining o₂, ?_⟩
      exact run_bind_eq_ok.mpr ⟨u, _, blind_skipUntil _ _ _ _ _ hSkip o₂, rfl⟩
    · exact ((Finds.bind fun _ => .pure _ _).absurd h).elim
    · exact ((Finds.bind fun _ => .pure _ _).absurd h).elim
    · obtain ⟨u, s₂, -, h⟩ := run_bind_eq_ok.mp h
      split at h
      · exact ((Finds.bind fun _ => .pure _ _).absurd h).elim
      · exact ((Finds.bind fun _ => .pure _ _).absurd h).elim
      · cases h
    · exact ((Finds.bind fun _ => .pure _ _).absurd h).elim
    · exact ((Finds.bind fun _ => .pure _ _).absurd h).elim
    · next t _ _ _ _ _ _ _ _ =>
      obtain ⟨u, s₂, hModify, h⟩ := run_bind_eq_ok.mp h
      cases hModify
      obtain ⟨⟨whole, changed'⟩, s₃, hChange, h⟩ := run_bind_eq_ok.mp h
      dsimp only at h
      split at h
      · next hWhole =>
        subst hWhole
        cases h
        obtain ⟨rfl, hWithin, hAgain⟩ := optionsChange_again hChange
        dsimp only at hWithin hAgain
        rw [hOptions] at hWithin hAgain
        refine ⟨rfl, hWithin, fun o₂ O hLow hHigh hAll => ?_⟩
        obtain ⟨o₃, hAdded, hBelow, hRun⟩ := hAgain o₂ o₂ O hLow hHigh hAll
        refine ⟨o₃, hAdded, hBelow, ?_⟩
        rw [extension]
        refine run_bind_eq_ok.mpr ⟨_, _, blind_next _ _ _ hNext o₂, ?_⟩
        split
        any_goals contradiction
        exact run_bind_eq_ok.mpr ⟨(), _, rfl, run_bind_eq_ok.mpr ⟨(true, o₃), s'.withOptions o₃, hRun, rfl⟩⟩
      · exact ((Finds.bind fun _ => .pure _ _).absurd h).elim

/-- A piece that is no part starts with a parenthesis, and a question mark comes next. -/
theorem piece_none {fuel : Nat} {o changed : Options} {t : Token} {s s' : Source}
    (h : (piece (fuel + 1) true o t).run s = .ok ((none, changed), s')) :
    t = .plain '(' ∧ ∃ s₁, (accept '?').run s = .ok (true, s₁) ∧
      (extension fuel true o).run s₁ = .ok ((none, changed), s') := by
  unfold piece at h
  dsimp only at h
  split at h
  · exact ((Finds.bind fun _ => .pure _ _).absurd h).elim
  · exact ((Finds.bind fun _ => .pure _ _).absurd h).elim
  · exact ((Finds.pure _ _).absurd h).elim
  · exact ((Finds.pure _ _).absurd h).elim
  · exact ((Finds.pure _ _).absurd h).elim
  · obtain ⟨question, s₁, hAccept, h⟩ := run_bind_eq_ok.mp h
    split at h
    · next hQuestion =>
      subst hQuestion
      exact ⟨rfl, s₁, hAccept, h⟩
    · exact ((Finds.bind fun _ => .pure _ _).absurd h).elim
  · exact ((Finds.pure _ _).absurd h).elim
  · cases h

theorem piece_none_token {fuel : Nat} {o changed : Options} {t : Token} {s s' : Source}
    (h : (piece fuel true o t).run s = .ok ((none, changed), s')) : t = .plain '(' := by
  cases fuel with
  | zero => cases h
  | succ fuel => exact (piece_none h).1

theorem piece_resumes (fuel : Nat) (t : Token) : Resumes fun o => piece fuel true o t := by
  intro s changed s' h
  cases fuel with
  | zero => cases h
  | succ fuel =>
    obtain ⟨rfl, s₁, hAccept, hExtension⟩ := piece_none h
    have hOptions : s₁.options = s.options := keeps_accept _ _ _ _ hAccept
    rw [← hOptions] at hExtension ⊢
    obtain ⟨hChanged, hWithin, hAgain⟩ := extension_resumes fuel s₁ changed s' hExtension
    refine ⟨hChanged, hWithin, fun o₂ O hLow hHigh hAll => ?_⟩
    obtain ⟨o₃, hAdded, hBelow, hRun⟩ := hAgain o₂ O hLow hHigh hAll
    exact ⟨o₃, hAdded, hBelow, run_bind_eq_ok.mpr ⟨true, _, blind_accept _ _ _ _ hAccept o₂, hRun⟩⟩

/-- Read with options that the text brings about anyway, the outcome is the same. -/
def Repeats (m : Options → Reading α) : Prop :=
  ∀ s a s', (m s.options).run s = .ok (a, s') →
    Within s.options s'.options ∧
      ∀ o₂, Within s.options o₂ → Within o₂ s'.options → (m o₂).run (s.withOptions o₂) = .ok (a, s')

theorem repeats_of_options_eq {m : Options → Reading α} {s s' : Source} {a : α}
    (h : (m s.options).run s = .ok (a, s')) (hOptions : s'.options = s.options) :
    Within s.options s'.options ∧
      ∀ o₂, Within s.options o₂ → Within o₂ s'.options → (m o₂).run (s.withOptions o₂) = .ok (a, s') := by
  refine ⟨hOptions ▸ .refl _, fun o₂ hLow hHigh => ?_⟩
  obtain rfl : o₂ = s.options := (hOptions ▸ hHigh).antisymm hLow
  exact h

theorem Repeats.after {m : Reading α} {f : Options → Reading β} (hf : Repeats f) (hKeeps : Keeps m)
    (hBlind : Blind m) : Repeats fun o => m >>= fun _ => f o := by
  intro s b s' h
  obtain ⟨a, s₁, hRun, hRest⟩ := run_bind_eq_ok.mp h
  have hOptions : s₁.options = s.options := hKeeps s a s₁ hRun
  rw [← hOptions] at hRest ⊢
  obtain ⟨hWithin, hAgain⟩ := hf s₁ b s' hRest
  exact ⟨hWithin, fun o₂ hLow hHigh =>
    run_bind_eq_ok.mpr ⟨a, s₁.withOptions o₂, hBlind s a s₁ hRun o₂, hAgain o₂ hLow hHigh⟩⟩

theorem Repeats.afterOptions {m : Options → Reading (Option Piece × Options)} {f : Options → Reading β}
    (hf : Repeats f) (hm : Resumes m) {s s₁ s' : Source} {changed : Options} {b : β}
    (hRun : (m s.options).run s = .ok ((none, changed), s₁)) (hRest : (f changed).run s₁ = .ok (b, s')) :
    Within s.options s'.options ∧ ∀ o₂, Within s.options o₂ → Within o₂ s'.options →
      ∃ o₃ s₃, (m o₂).run (s.withOptions o₂) = .ok ((none, o₃), s₃) ∧ (f o₃).run s₃ = .ok (b, s') := by
  obtain ⟨rfl, hFirst, hResume⟩ := hm s changed s₁ hRun
  obtain ⟨hRestWithin, hAgain⟩ := hf s₁ b s' hRest
  refine ⟨hFirst.trans hRestWithin, fun o₂ hLow hHigh => ?_⟩
  obtain ⟨o₃, hAdded, hBelow, hRun₃⟩ := hResume o₂ s'.options hLow hHigh hRestWithin
  exact ⟨o₃, s₁.withOptions o₃, hRun₃, hAgain o₃ hAdded hBelow⟩

theorem run_pieces_succ {fuel : Nat} {o : Options} {s : Source} {t : Token} (hPeek : s.rest.head? = some t)
    (hBar : t ≠ .plain '|') (hClose : t ≠ .plain ')') :
    (pieces (fuel + 1) true o []).run s = (do
      discard next?
      if o.verbose && isLayout t then pieces fuel true o []
      else if o.verbose && t = .plain '#' then
        skipComment (← remaining)
        pieces fuel true o []
      else match ← repetition? t with
        | some bounds => pieces fuel true o (← repeatLast bounds [])
        | none =>
          let (found, changed) ← piece fuel true o t
          match found with
          | some p => pieces fuel true o [p]
          | none => pieces fuel true changed [] : Reading (List Piece)).run s := by
  have hRun : peek.run s = .ok (some t, s) := by
    rw [← hPeek]
    rfl
  rw [pieces, StateT.run_bind, hRun]
  dsimp only [bind, Except.bind]
  split
  · next hToken => cases hToken
  · next hToken => exact absurd (Option.some.inj hToken) hBar
  · next hToken => exact absurd (Option.some.inj hToken) hClose
  · next hToken =>
    cases hToken
    rfl

theorem run_pieces_end {fuel : Nat} {o : Options} {s : Source}
    (h : ∀ t, s.rest.head? = some t → t = .plain '|' ∨ t = .plain ')') :
    (pieces (fuel + 1) true o []).run s = .ok ([], s) := by
  have hRun : peek.run s = .ok (s.rest.head?, s) := rfl
  rw [pieces, StateT.run_bind, hRun]
  cases hPeek : s.rest.head? with
  | none => rfl
  | some t => rcases h t hPeek with rfl | rfl <;> rfl

theorem keeps_piece_some {fuel : Nat} {o changed : Options} {t : Token} {p : Piece} {s s₁ s' : Source}
    {pieces : List Piece} (h : (piece fuel true o t).run s = .ok ((some p, changed), s₁))
    (hRest : (Parser.pieces fuel true o [p]).run s₁ = .ok (pieces, s')) : s'.options = s.options :=
  ((keepsTo fuel).pieces (.inr (List.cons_ne_nil _ _)) o _ _ _ hRest).trans
    ((keepsTo fuel).piece true o t _ _ _ h rfl)

theorem run_pieces_layout {fuel : Nat} {o : Options} {s : Source} {t : Token}
    (hPeek : s.rest.head? = some t)
    (hEnd : t ≠ .plain '|' ∧ t ≠ .plain ')') (h : (o.verbose && isLayout t) = true) :
    (pieces (fuel + 1) true o []).run s = (discard next? >>= fun _ => pieces fuel true o []).run s := by
  rw [run_pieces_succ hPeek hEnd.1 hEnd.2]
  simp only [h, if_true]

theorem run_pieces_comment {fuel : Nat} {o : Options} {s : Source} {t : Token}
    (hPeek : s.rest.head? = some t)
    (hEnd : t ≠ .plain '|' ∧ t ≠ .plain ')') (hLayout : (o.verbose && isLayout t) = false)
    (h : (o.verbose && t = .plain '#') = true) :
    (pieces (fuel + 1) true o []).run s =
      ((discard next? >>= fun _ => remaining >>= skipComment) >>= fun _ =>
        pieces fuel true o []).run s := by
  rw [run_pieces_succ hPeek hEnd.1 hEnd.2]
  simp only [hLayout, h, if_true, Bool.false_eq_true, if_false, bind_assoc]

/-- When the options change while pieces are read, the first piece is no part. -/
theorem run_pieces_options {fuel : Nat} {o : Options} {s s' : Source} {t : Token} {ps : List Piece}
    (hPeek : s.rest.head? = some t) (hEnd : t ≠ .plain '|' ∧ t ≠ .plain ')')
    (hLayout : (o.verbose && isLayout t) = false) (hComment : (o.verbose && t = .plain '#') = false)
    (h : (pieces (fuel + 1) true o []).run s = .ok (ps, s')) (hChanged : s'.options ≠ s.options) :
    t = .plain '(' ∧ ∃ changed s₁,
      (discard next? >>= fun _ => piece fuel true o t).run s = .ok ((none, changed), s₁) ∧
        (pieces fuel true changed []).run s₁ = .ok (ps, s') := by
  rw [run_pieces_succ hPeek hEnd.1 hEnd.2] at h
  simp only [hLayout, hComment, Bool.false_eq_true, if_false] at h
  obtain ⟨u, s₁, hNext, h⟩ := run_bind_eq_ok.mp h
  obtain ⟨bounds, s₂, hRepetition, h⟩ := run_bind_eq_ok.mp h
  have hOptions : s₂.options = s.options :=
    (keeps_repetition? t _ _ _ hRepetition).trans (keeps_discard keeps_next? _ _ _ hNext)
  cases bounds with
  | some bounds =>
    obtain ⟨pieces, s₃, hRepeat, -⟩ := run_bind_eq_ok.mp h
    exact absurd rfl (run_repeatLast_ne_nil hRepeat).1
  | none =>
    obtain ⟨⟨found, changed⟩, s₃, hPiece, hRest⟩ := run_bind_eq_ok.mp h
    cases found with
    | some p =>
      -- behind a part there is no place for options of the whole pattern
      exact absurd ((keeps_piece_some hPiece hRest).trans hOptions) hChanged
    | none =>
      obtain rfl := piece_none_token hPiece
      cases hRepetition
      exact ⟨rfl, changed, s₃, run_bind_eq_ok.mpr ⟨u, _, hNext, hPiece⟩, hRest⟩

theorem run_pieces_open {fuel : Nat} {o changed : Options} {s s₁ s' : Source} {ps : List Piece}
    (hPeek : s.rest.head? = some (.plain '('))
    (hPiece : (discard next? >>= fun _ => piece fuel true o (.plain '(')).run s = .ok ((none, changed), s₁))
    (hRest : (pieces fuel true changed []).run s₁ = .ok (ps, s')) :
    (pieces (fuel + 1) true o []).run s = .ok (ps, s') := by
  have hLayout : (o.verbose && isLayout (.plain '(')) = false := Bool.and_false _
  have hComment : (o.verbose && decide (Token.plain '(' = .plain '#')) = false := Bool.and_false _
  rw [run_pieces_succ hPeek (by decide) (by decide)]
  simp only [hLayout, hComment, Bool.false_eq_true, if_false]
  obtain ⟨u, s₀, hNext, hPiece⟩ := run_bind_eq_ok.mp hPiece
  exact run_bind_eq_ok.mpr ⟨u, s₀, hNext, run_bind_eq_ok.mpr ⟨none, s₀, rfl,
    run_bind_eq_ok.mpr ⟨(none, changed), s₁, hPiece, hRest⟩⟩⟩

theorem Resumes.after {m : Reading α} {f : Options → Reading (Option Piece × Options)} (hf : Resumes f)
    (hKeeps : Keeps m) (hBlind : Blind m) : Resumes fun o => m >>= fun _ => f o := by
  intro s changed s' h
  obtain ⟨a, s₁, hRun, hRest⟩ := run_bind_eq_ok.mp h
  have hOptions : s₁.options = s.options := hKeeps s a s₁ hRun
  rw [← hOptions] at hRest ⊢
  obtain ⟨hChanged, hWithin, hAgain⟩ := hf s₁ changed s' hRest
  refine ⟨hChanged, hWithin, fun o₂ O hLow hHigh hAll => ?_⟩
  obtain ⟨o₃, hAdded, hBelow, hRest₃⟩ := hAgain o₂ O hLow hHigh hAll
  exact ⟨o₃, hAdded, hBelow, run_bind_eq_ok.mpr ⟨a, s₁.withOptions o₂, hBlind s a s₁ hRun o₂, hRest₃⟩⟩

theorem pieces_repeats : ∀ fuel, Repeats fun o => pieces fuel true o []
  | 0 => by
    intro s a s' h
    cases h
  | fuel + 1 => by
    intro s ps s' h
    have ih := pieces_repeats fuel
    by_cases hEqual : s'.options = s.options
    · exact repeats_of_options_eq h hEqual
    · change (pieces (fuel + 1) true s.options []).run s = _ at h
      change _ ∧ ∀ o₂, _ → _ → (pieces (fuel + 1) true o₂ []).run (s.withOptions o₂) = _
      -- the options change: what comes first is layout or a comment, or the options themselves
      by_cases hEnd : ∀ t, s.rest.head? = some t → t = .plain '|' ∨ t = .plain ')'
      · rw [run_pieces_end hEnd] at h
        cases h
        exact absurd rfl hEqual
      · obtain ⟨t, hPeek, hToken⟩ : ∃ t, s.rest.head? = some t ∧ (t ≠ .plain '|' ∧ t ≠ .plain ')') := by
          simpa using hEnd
        by_cases hLayout : (s.options.verbose && isLayout t) = true
        · rw [run_pieces_layout hPeek hToken hLayout] at h
          obtain ⟨hWithin, hAgain⟩ := ih.after (keeps_discard keeps_next?)
            (blind_discard blind_next?) s ps s' h
          refine ⟨hWithin, fun o₂ hLow hHigh => ?_⟩
          rw [Bool.and_eq_true] at hLayout
          -- verbose cannot be taken away again, so that layout is skipped with more options too
          rw [run_pieces_layout (s := s.withOptions o₂) hPeek hToken
            (by rw [hLow.verbose hLayout.1, hLayout.2]; rfl)]
          exact hAgain o₂ hLow hHigh
        · rw [Bool.not_eq_true] at hLayout
          by_cases hComment : (s.options.verbose && t = .plain '#') = true
          · rw [run_pieces_comment hPeek hToken hLayout hComment] at h
            have hKeeps := (keeps_discard keeps_next?).bind fun _ => keeps_remaining.bind keeps_skipComment
            have hBlind := (blind_discard blind_next?).bind fun _ => blind_remaining.bind blind_skipComment
            obtain ⟨hWithin, hAgain⟩ := ih.after hKeeps hBlind s ps s' h
            refine ⟨hWithin, fun o₂ hLow hHigh => ?_⟩
            rw [Bool.and_eq_true, decide_eq_true_eq] at hComment
            have hVerbose := hLow.verbose hComment.1
            obtain rfl := hComment.2
            rw [run_pieces_comment (s := s.withOptions o₂) hPeek hToken
              (by rw [Bool.and_eq_false_imp]; intro; rfl)
              (by rw [hVerbose]; rfl)]
            exact hAgain o₂ hLow hHigh
          · rw [Bool.not_eq_true] at hComment
            obtain ⟨rfl, changed, s₁, hPiece, hRest⟩ :=
              run_pieces_options hPeek hToken hLayout hComment h hEqual
            have hResumes := (piece_resumes fuel (.plain '(')).after (keeps_discard keeps_next?)
              (blind_discard blind_next?)
            obtain ⟨hWithin, hAgain⟩ := ih.afterOptions hResumes hPiece hRest
            refine ⟨hWithin, fun o₂ hLow hHigh => ?_⟩
            obtain ⟨o₃, s₃, hPiece₃, hRest₃⟩ := hAgain o₂ hLow hHigh
            exact run_pieces_open (s := s.withOptions o₂) hPeek hPiece₃ hRest₃

/-! ### The whole pattern -/

theorem branch_repeats (fuel : Nat) : Repeats fun o => branch fuel true o := by
  cases fuel with
  | zero =>
    intro s a s' h
    cases h
  | succ fuel =>
    intro s a s' h
    obtain ⟨ps, s₁, hPieces, hEnd⟩ := run_bind_eq_ok.mp h
    cases hEnd
    obtain ⟨hWithin, hAgain⟩ := pieces_repeats fuel s ps _ hPieces
    exact ⟨hWithin, fun o₂ hLow hHigh => run_bind_eq_ok.mpr ⟨ps, _, hAgain o₂ hLow hHigh, rfl⟩⟩

theorem otherBranches_outer (fuel : Nat) (o o' : Options) :
    otherBranches fuel true o = otherBranches fuel true o' := by
  cases fuel <;> rfl

theorem branches_repeats (fuel : Nat) : Repeats fun o => branches fuel true o := by
  cases fuel with
  | zero =>
    intro s a s' h
    cases h
  | succ fuel =>
    intro s a s' h
    obtain ⟨first, s₁, hFirst, h⟩ := run_bind_eq_ok.mp h
    obtain ⟨rest, s₂, hRest, hEnd⟩ := run_bind_eq_ok.mp h
    cases hEnd
    have hOptions : s'.options = s₁.options := (keepsTo fuel).otherBranches true _ _ _ _ hRest
    obtain ⟨hWithin, hAgain⟩ := branch_repeats fuel s first s₁ hFirst
    rw [hOptions]
    refine ⟨hWithin, fun o₂ hLow hHigh => ?_⟩
    refine run_bind_eq_ok.mpr ⟨first, s₁, hAgain o₂ hLow hHigh, run_bind_eq_ok.mpr ⟨rest, s', ?_, rfl⟩⟩
    rw [otherBranches_outer fuel o₂ s.options]
    exact hRest

theorem parse_again {octets : Bool} {o O : Options} {text : List Char} {program : Node}
    (h : parse octets o text = .ok (O, program)) :
    Within o O ∧ ∀ o₂, Within o o₂ → Within o₂ O → parse octets o₂ text = .ok (O, program) := by
  rw [parse] at h
  obtain ⟨⟨result, s'⟩, hWhole, hResult⟩ := Except.bind_eq_ok.mp h
  cases hResult
  rw [whole] at hWhole
  obtain ⟨first, s₀, hPeek, hWhole⟩ := run_bind_eq_ok.mp hWhole
  cases hPeek
  obtain ⟨hBroken, hWhole⟩ := run_orFail_eq_ok.mp hWhole
  obtain ⟨n, s₀, hRemaining, hWhole⟩ := run_bind_eq_ok.mp hWhole
  cases hRemaining
  obtain ⟨s₀, s₁, hGet, hWhole⟩ := run_bind_eq_ok.mp hWhole
  cases hGet
  obtain ⟨nodes, s₂, hBranches, hEnd⟩ := run_bind_eq_ok.mp hWhole
  obtain rfl : s₂.options = O := by
    obtain ⟨s₀, s₁, hGet, hEnd⟩ := run_bind_eq_ok.mp hEnd
    cases hGet
    obtain ⟨-, hEnd⟩ := run_orThrow_eq_ok.mp hEnd
    obtain ⟨-, hEnd⟩ := run_orFail_eq_ok.mp hEnd
    dsimp only at hEnd
    split at hEnd <;> cases hEnd
    rfl
  obtain ⟨hWithin, hAgain⟩ := branches_repeats _ _ _ _ hBranches
  refine ⟨hWithin, fun o₂ hLow hHigh => ?_⟩
  have hRun : whole.run { rest := tokens text, options := o₂, octets } =
    .ok ((s₂.options, program), s') := by
    refine run_bind_eq_ok.mpr ⟨_, _, rfl, run_orFail_eq_ok.mpr ⟨hBroken, ?_⟩⟩
    refine run_bind_eq_ok.mpr ⟨_, _, rfl, run_bind_eq_ok.mpr ⟨_, _, rfl, ?_⟩⟩
    exact run_bind_eq_ok.mpr ⟨nodes, s₂, hAgain o₂ hLow hHigh, hEnd⟩
  rw [parse, hRun]
  rfl

end Parser

/-! ### Patterns -/

/-- Read from a text, with options that have letters on the wire. -/
def FromText (p : Pattern) : Prop :=
  ∃ (text : String) (o : Options), o.ascii = false ∧ compile (.string text) o = .ok p

theorem ofChars_eq_ok {source : Json} {octets : Bool} {o : Options} {text : List Char} {p : Pattern} :
    ofChars source octets o text = .ok p ↔
      p.source = source ∧ Parser.parse octets o text = .ok (p.options, p.program) := by
  rw [ofChars]
  split
  · next options program hParse =>
    rw [hParse]
    constructor
    · intro h
      cases h
      exact ⟨rfl, rfl⟩
    · rintro ⟨rfl, h⟩
      cases h
      rfl
  · next hParse =>
    rw [hParse]
    constructor
    · intro h
      cases h
    · rintro ⟨-, h⟩
      cases h

theorem optionsOfLetters_optionLetters (p : Pattern) :
    optionsOfLetters p.optionLetters = { p.options with ascii := false } := by
  obtain ⟨source, ⟨i, m, s, x, a⟩, program⟩ := p
  simp only [optionsOfLetters, optionLetters, String.contains_char_eq, String.toList_ofList]
  cases i <;> cases m <;> cases s <;> cases x <;> rfl

theorem FromText.compile_again {p : Pattern} (h : p.FromText) :
    compile p.source (optionsOfLetters p.optionLetters) = .ok p := by
  obtain ⟨text, o, hAscii, hCompile⟩ := h
  obtain ⟨hSource, hParse⟩ := ofChars_eq_ok.mp hCompile
  obtain ⟨hWithin, hAgain⟩ := Parser.parse_again hParse
  rw [hSource]
  refine ofChars_eq_ok.mpr ⟨hSource, hAgain _ ?_ ?_⟩
  · rw [optionsOfLetters_optionLetters]
    exact ⟨hWithin.1, hWithin.2, hWithin.3, hWithin.4, fun h => by rw [hAscii] at h; cases h⟩
  · rw [optionsOfLetters_optionLetters]
    exact ⟨id, id, id, id, nofun⟩

end RecordCache.Pattern
