import RecordCache.Proofs.Date.Iso
import RecordCache.Proofs.Except

/-!
# Dates as they are written

A text in the written form that is read as a date of a full year is the text of that date. A part can be read in
several ways, but of two digits with a separator behind them only as both.
-/

namespace RecordCache.Date

/-- The written form: a nought stands for any digit, everything else for itself. -/
def template : List Char := "0000-00-00T00:00:00.000Z".toList

def fitsPlace (place c : Char) : Bool := if place = '0' then c.isDigit else place == c

def fits : List Char → List Char → Bool
  | [], [] => true
  | place :: places, c :: rest => fitsPlace place c && fits places rest
  | _, _ => false

/-- In the written form, whether there is such a day or not. -/
def isWritten (text : String) : Bool := fits template text.toList

theorem eq_digitChar {c : Char} (h : c.isDigit = true) : ∃ n < 10, c = Nat.digitChar n := by
  have hRange : 48 ≤ c.toNat ∧ c.toNat ≤ 57 := by
    simpa [Char.isDigit, UInt32.le_iff_toNat_le] using h
  refine ⟨c.toNat - 48, by omega, Char.toNat_inj.mp ?_⟩
  rw [Nat.toNat_digitChar_of_lt_ten (by omega)]
  omega

theorem isDigit_digitChar {n : Nat} (h : n < 10) : (Nat.digitChar n).isDigit = true := (digitChar_isDigit h).1

namespace Part

variable {α β : Type} {p q : Part α} {text rest : List Char} {a : α} {b : β} {n : Nat} {c : Char}

/-- One of the readings of a text: a value, and what is left of the text. -/
def Reads (p : Part α) (text : List Char) (a : α) (rest : List Char) : Prop := (a, rest) ∈ p.run text

theorem reads_pure_iff {given : α} : Reads (Pure.pure given) text a rest ↔ a = given ∧ rest = text := by
  change (a, rest) ∈ [(given, text)] ↔ _
  rw [List.mem_singleton, Prod.mk.injEq]

theorem reads_bind_iff {f : α → Part β} :
    Reads (p >>= f) text b rest ↔ ∃ a middle, Reads p text a middle ∧ Reads (f a) middle b rest := by
  change (b, rest) ∈ (p.run text).flatMap (fun e => (f e.1).run e.2) ↔ _
  rw [List.mem_flatMap, Prod.exists]
  rfl

theorem reads_either_iff : Reads (either p q) text a rest ↔ Reads p text a rest ∨ Reads q text a rest :=
  List.mem_append

theorem reads_literal_iff {u : Unit} : Reads (literal c) text u rest ↔ text = c :: rest := by
  cases text with
  | nil => simp [Reads, literal]
  | cons d more =>
    change (u, rest) ∈ (if c = d then [((), more)] else []) ↔ _
    split
    · next hSame =>
      subst hSame
      rw [List.mem_singleton, Prod.mk.injEq, List.cons_eq_cons]
      exact ⟨fun h => ⟨rfl, h.2.symm⟩, fun h => ⟨rfl, h.2.symm⟩⟩
    · next hOther => simp [Ne.symm hOther]

/-! ### Digits -/

/-- There is no other way to read the text. -/
def ReadsOnly (p : Part Nat) (text : List Char) (n : Nat) (rest : List Char) : Prop :=
  ∀ m left, Reads p text m left → m = n ∧ left = rest

theorem ReadsOnly.pair {tens ones : Part Nat} {middle : List Char} {m : Nat} (hTens : ReadsOnly tens text m middle)
    (hOnes : ReadsOnly ones middle n rest) : ReadsOnly (Part.pair tens ones) text (10 * m + n) rest := by
  intro k left hReads
  obtain ⟨a, afterTens, ha, hRest⟩ := reads_bind_iff.mp hReads
  obtain ⟨rfl, rfl⟩ := hTens _ _ ha
  obtain ⟨b, afterOnes, hb, hEnd⟩ := reads_bind_iff.mp hRest
  obtain ⟨rfl, rfl⟩ := hOnes _ _ hb
  exact reads_pure_iff.mp hEnd

def OneDigit (p : Part Nat) : Prop := ∀ n < 10, ∀ rest, ReadsOnly p (Nat.digitChar n :: rest) n rest

/-- Of two digits it reads both, or it leaves the second one. -/
def TwoDigits (p : Part Nat) : Prop :=
  ∀ n < 100, ∀ rest m left, Reads p (twoDigits n ++ rest) m left →
    m = n ∧ left = rest ∨ left = Nat.digitChar (n % 10) :: rest

theorem oneDigit_anyDigit : OneDigit anyDigit := by
  intro n hn rest m left h
  have hValue : Text.digitValue? (Nat.digitChar n) = some n := by
    interval_cases n <;> rfl
  change (m, left) ∈ (Text.digitValue? (Nat.digitChar n)).toList.map fun v => (v, rest) at h
  rwa [hValue, Option.toList_some, List.map_singleton, List.mem_singleton, Prod.mk.injEq] at h

theorem oneDigit_digitIn (low high : Char) : OneDigit (digitIn low high) := by
  intro n hn rest m left h
  change (m, left) ∈
    (if low ≤ Nat.digitChar n && Nat.digitChar n ≤ high then [((Nat.digitChar n).toNat - '0'.toNat, rest)] else []) at h
  split at h
  · rwa [List.mem_singleton, Prod.mk.injEq, (digitChar_isDigit hn).2] at h
  · cases h

theorem OneDigit.first {p : Part Nat} (h : OneDigit p) : TwoDigits p := by
  intro n hn rest m left hReads
  exact .inr (h (n / 10) (by omega) _ _ _ hReads).2

theorem OneDigit.pair {tens ones : Part Nat} (hTens : OneDigit tens) (hOnes : OneDigit ones) :
    TwoDigits (Part.pair tens ones) := by
  intro n hn rest m left hReads
  have hOnly := (hTens (n / 10) (by omega) _).pair (hOnes (n % 10) (by omega) rest)
  obtain ⟨rfl, rfl⟩ := hOnly _ _ hReads
  exact .inl ⟨by omega, rfl⟩

theorem TwoDigits.either {p q : Part Nat} (hp : TwoDigits p) (hq : TwoDigits q) : TwoDigits (Part.either p q) := by
  intro n hn rest m left hReads
  rcases reads_either_iff.mp hReads with h | h
  · exact hp n hn rest m left h
  · exact hq n hn rest m left h

theorem twoDigits_month : TwoDigits month :=
  ((oneDigit_digitIn _ _).pair (oneDigit_digitIn _ _)).either
    (((oneDigit_digitIn _ _).pair (oneDigit_digitIn _ _)).either (oneDigit_digitIn _ _).first)

theorem twoDigits_blank : TwoDigits (do literal ' '; digitIn '1' '9') := by
  intro n hn rest m left hReads
  obtain ⟨_, middle, hBlank, -⟩ := reads_bind_iff.mp hReads
  have hFirst : Nat.digitChar (n / 10) = ' ' := (List.cons_eq_cons.mp (reads_literal_iff.mp hBlank)).1
  have hDigit := isDigit_digitChar (n := n / 10) (by omega)
  rw [hFirst] at hDigit
  cases hDigit

theorem twoDigits_day : TwoDigits day :=
  ((oneDigit_digitIn _ _).pair (oneDigit_digitIn _ _)).either
    (((oneDigit_digitIn _ _).pair oneDigit_anyDigit).either
      (((oneDigit_digitIn _ _).pair (oneDigit_digitIn _ _)).either
        ((oneDigit_digitIn _ _).first.either twoDigits_blank)))

theorem twoDigits_hour : TwoDigits hour :=
  ((oneDigit_digitIn _ _).pair (oneDigit_digitIn _ _)).either
    (((oneDigit_digitIn _ _).pair oneDigit_anyDigit).either oneDigit_anyDigit.first)

theorem twoDigits_minute : TwoDigits minute :=
  ((oneDigit_digitIn _ _).pair oneDigit_anyDigit).either oneDigit_anyDigit.first

theorem twoDigits_second : TwoDigits second :=
  ((oneDigit_digitIn _ _).pair (oneDigit_digitIn _ _)).either
    (((oneDigit_digitIn _ _).pair oneDigit_anyDigit).either oneDigit_anyDigit.first)

theorem TwoDigits.before {p : Part Nat} (h : TwoDigits p) {m : Nat} {more : List Char} (hn : n < 100)
    (hSeparator : c.isDigit = false) (hReads : Reads p (twoDigits n ++ rest) m (c :: more)) :
    m = n ∧ rest = c :: more := by
  rcases h n hn rest m _ hReads with ⟨rfl, hRest⟩ | hLeft
  · exact ⟨rfl, hRest.symm⟩
  · have hDigit := isDigit_digitChar (n := n % 10) (by omega)
    rw [← (List.cons_eq_cons.mp hLeft).1, hSeparator] at hDigit
    cases hDigit

/-- Reads one character, which is no digit. -/
def Separates (p : Part Unit) : Prop :=
  ∀ text u rest, Reads p text u rest → ∃ c : Char, c.isDigit = false ∧ text = c :: rest

theorem separates_literal (hOther : c.isDigit = false) : Separates (literal c) :=
  fun _ _ _ hReads => ⟨c, hOther, reads_literal_iff.mp hReads⟩

theorem Separates.either {p q : Part Unit} (hp : Separates p) (hq : Separates q) : Separates (Part.either p q) :=
  fun text u rest hReads => (reads_either_iff.mp hReads).elim (hp text u rest) (hq text u rest)

/-- Two digits before a separator are read as both digits. -/
theorem TwoDigits.reads_bind {p : Part Nat} {separator : Part Unit} (h : TwoDigits p) (hSeparates : Separates separator)
    (hn : n < 100) {f : Nat → Part β}
    (hReads : Reads (do let m ← p; separator; f m) (twoDigits n ++ c :: text) b rest) : Reads (f n) text b rest := by
  obtain ⟨m, middle, hDigits, hSeparated⟩ := reads_bind_iff.mp hReads
  obtain ⟨u, more, hLiteral, hRest⟩ := reads_bind_iff.mp hSeparated
  obtain ⟨d, hOther, rfl⟩ := hSeparates _ _ _ hLiteral
  obtain ⟨rfl, hText⟩ := h.before hn hOther hDigits
  obtain ⟨-, rfl⟩ := List.cons_eq_cons.mp hText
  exact hRest

theorem readsOnly_year (hn : n < 10000) (rest : List Char) :
    ReadsOnly year
      (Nat.digitChar (n / 1000) :: Nat.digitChar (n / 100 % 10) :: Nat.digitChar (n / 10 % 10) ::
        Nat.digitChar (n % 10) :: rest) n rest := by
  have hYear : 10 * (10 * (10 * (n / 1000) + n / 100 % 10) + n / 10 % 10) + n % 10 = n := by omega
  have hOnly := (((oneDigit_anyDigit (n / 1000) (by omega) _).pair (oneDigit_anyDigit (n / 100 % 10) (by omega) _)).pair
    (oneDigit_anyDigit (n / 10 % 10) (by omega) _)).pair (oneDigit_anyDigit (n % 10) (by omega) rest)
  rwa [hYear] at hOnly

/-- Three digits before the last character are read as all of them. -/
theorem reads_millionths (hn : n < 1000) {m : Nat}
    (hReads : Reads millionths (Nat.digitChar (n / 100) :: (twoDigits (n % 100) ++ ['Z'])) m [c]) : m = n * 1000 := by
  obtain ⟨hFirst, hFirstValue⟩ := digitChar_isDigit (n := n / 100) (by omega)
  obtain ⟨hSecond, hSecondValue⟩ := digitChar_isDigit (n := n % 100 / 10) (by omega)
  obtain ⟨hThird, hThirdValue⟩ := digitChar_isDigit (n := n % 100 % 10) (by omega)
  have hStop : ('Z' : Char).isDigit = false := rfl
  simp only [Reads, millionths, twoDigits, List.cons_append, List.nil_append, List.take, List.takeWhile, hFirst,
    hSecond, hThird, hStop, List.length_cons, List.length_nil, List.range, List.range.loop, List.reverse,
    List.reverseAux, List.map_cons, List.map_nil, List.foldl_cons, List.foldl_nil, hFirstValue, hSecondValue,
    hThirdValue, List.drop, List.mem_cons, Prod.mk.injEq, List.cons.injEq, reduceCtorEq, and_false,
    List.not_mem_nil, or_false] at hReads
  obtain ⟨rfl, -⟩ := hReads
  change (10 * (10 * (10 * 0 + n / 100) + n % 100 / 10) + n % 100 % 10) * 1000 = n * 1000
  omega

theorem separates_day : Separates (either (literal 'T') (literal 't')) :=
  (separates_literal rfl).either (separates_literal rfl)

theorem separates_end : Separates (either (literal 'Z') (literal 'z')) :=
  (separates_literal rfl).either (separates_literal rfl)

section WallTime

variable {year month day hour minute second millis : Nat} {t : WallTime}

/-- Whatever is read of the fraction, the parts before it are those of the text. -/
theorem reads_wallTime {fraction : Part Nat} (hYear : year < 10000) (hMonth : month < 100) (hDay : day < 100)
    (hHour : hour < 100) (hMinute : minute < 100)
    (hReads : Reads (wallTime fraction) (isoChars year month day hour minute second millis) t []) :
    ∃ s middle micros last, Reads Part.second
        (twoDigits second ++ '.' :: Nat.digitChar (millis / 100) :: (twoDigits (millis % 100) ++ ['Z'])) s middle ∧
      Reads fraction middle micros [last] ∧ last.isDigit = false ∧
      t = ⟨⟨year, month, day⟩, hour, minute, s, micros, some 0⟩ := by
  obtain ⟨y, _, hFirst, hReads⟩ := reads_bind_iff.mp hReads
  obtain ⟨rfl, rfl⟩ := readsOnly_year hYear _ _ _ hFirst
  obtain ⟨_, _, hLiteral, hReads⟩ := reads_bind_iff.mp hReads
  obtain ⟨-, rfl⟩ := List.cons_eq_cons.mp (reads_literal_iff.mp hLiteral)
  have hReads := twoDigits_month.reads_bind (separates_literal rfl) hMonth hReads
  have hReads := twoDigits_day.reads_bind separates_day hDay hReads
  have hReads := twoDigits_hour.reads_bind (separates_literal rfl) hHour hReads
  have hReads := twoDigits_minute.reads_bind (separates_literal rfl) hMinute hReads
  obtain ⟨s, middle, hSecond, hReads⟩ := reads_bind_iff.mp hReads
  obtain ⟨micros, left, hFraction, hReads⟩ := reads_bind_iff.mp hReads
  obtain ⟨u, more, hEnd, hReads⟩ := reads_bind_iff.mp hReads
  obtain ⟨rfl, rfl⟩ := reads_pure_iff.mp hReads
  obtain ⟨last, hOther, rfl⟩ := separates_end _ _ _ hEnd
  exact ⟨s, middle, micros, last, hSecond, hFraction, hOther, rfl⟩

theorem reads_withFraction (hYear : year < 10000) (hMonth : month < 100) (hDay : day < 100) (hHour : hour < 100)
    (hMinute : minute < 100) (hSecond : second < 100) (hMillis : millis < 1000)
    (hReads : Reads withFraction (isoChars year month day hour minute second millis) t []) :
    t = ⟨⟨year, month, day⟩, hour, minute, second, (millis * 1000 : Nat), some 0⟩ := by
  obtain ⟨s, middle, micros, last, hDigits, hFraction, -, rfl⟩ :=
    reads_wallTime hYear hMonth hDay hHour hMinute hReads
  obtain ⟨_, more, hPoint, hMillionths⟩ := reads_bind_iff.mp hFraction
  obtain rfl := reads_literal_iff.mp hPoint
  obtain ⟨rfl, hMore⟩ := twoDigits_second.before hSecond rfl hDigits
  obtain ⟨-, rfl⟩ := List.cons_eq_cons.mp hMore
  rw [reads_millionths hMillis hMillionths]

/-- A fraction is not passed over. -/
theorem not_reads_withoutFraction (hYear : year < 10000) (hMonth : month < 100) (hDay : day < 100) (hHour : hour < 100)
    (hMinute : minute < 100) (hSecond : second < 100) :
    ¬ Reads withoutFraction (isoChars year month day hour minute second millis) t [] := by
  intro hReads
  obtain ⟨s, middle, micros, last, hDigits, hFraction, hOther, rfl⟩ :=
    reads_wallTime hYear hMonth hDay hHour hMinute hReads
  obtain ⟨rfl, rfl⟩ := reads_pure_iff.mp hFraction
  obtain ⟨-, hMore⟩ := twoDigits_second.before hSecond hOther hDigits
  cases hMore

end WallTime

theorem exists_reads_of_date? {p : Part WallTime} {d : Date} (h : p.date? text = some d) :
    ∃ t, Reads p text t [] ∧ ofWallTime t = .ok d := by
  rw [Part.date?] at h
  split at h
  · next t more hRun =>
    refine ⟨t, ?_, Except.toOption_eq_some_iff.mp h⟩
    rw [Reads, hRun]
    exact List.mem_cons_self
  · cases h

end Part

/-! ### The places of the written form -/

section Fits

variable {place : Char} {places chars : List Char}

theorem exists_of_fits (h : fits (place :: places) chars = true) :
    ∃ c rest, fitsPlace place c = true ∧ fits places rest = true ∧ chars = c :: rest := by
  cases chars with
  | nil => cases h
  | cons c rest =>
    obtain ⟨hc, hRest⟩ := Bool.and_eq_true_iff.mp h
    exact ⟨c, rest, hc, hRest, rfl⟩

theorem eq_nil_of_fits (h : fits [] chars = true) : chars = [] := by
  cases chars with
  | nil => rfl
  | cons c rest => cases h

theorem exists_digit (h : fits ('0' :: places) chars = true) :
    ∃ n < 10, ∃ rest, fits places rest = true ∧ chars = Nat.digitChar n :: rest := by
  obtain ⟨c, rest, hc, hRest, rfl⟩ := exists_of_fits h
  obtain ⟨n, hn, rfl⟩ := eq_digitChar (c := c) hc
  exact ⟨n, hn, rest, hRest, rfl⟩

theorem exists_digits (h : fits ('0' :: '0' :: places) chars = true) :
    ∃ n < 100, ∃ rest, fits places rest = true ∧ chars = twoDigits n ++ rest := by
  obtain ⟨m, hm, middle, hMiddle, rfl⟩ := exists_digit h
  obtain ⟨n, hn, rest, hRest, rfl⟩ := exists_digit hMiddle
  have hTens : (10 * m + n) / 10 = m := by omega
  have hOnes : (10 * m + n) % 10 = n := by omega
  exact ⟨10 * m + n, by omega, rest, hRest, by rw [twoDigits, hTens, hOnes]; rfl⟩

theorem exists_mark (hPlace : place ≠ '0') (h : fits (place :: places) chars = true) :
    ∃ rest, fits places rest = true ∧ chars = place :: rest := by
  obtain ⟨c, rest, hc, hRest, rfl⟩ := exists_of_fits h
  rw [fitsPlace, if_neg hPlace, beq_iff_eq] at hc
  exact ⟨rest, hRest, by rw [hc]⟩

end Fits

/-- A text of the written form has numbers in its places. -/
theorem exists_isoChars {text : String} (h : isWritten text = true) :
    ∃ year month day hour minute second millis, (year < 10000 ∧ month < 100 ∧ day < 100) ∧
      (hour < 100 ∧ minute < 100 ∧ second < 100 ∧ millis < 1000) ∧
      text.toList = Part.isoChars year month day hour minute second millis := by
  have hTemplate : template = ['0', '0', '0', '0', '-', '0', '0', '-', '0', '0', 'T', '0', '0', ':', '0', '0',
    ':', '0', '0', '.', '0', '0', '0', 'Z'] := by decide
  rw [isWritten, hTemplate] at h
  generalize text.toList = chars at h
  obtain ⟨century, hCentury, _, h₁, rfl⟩ := exists_digits h
  obtain ⟨ofCentury, hOfCentury, _, h₂, rfl⟩ := exists_digits h₁
  obtain ⟨_, h₃, rfl⟩ := exists_mark (by decide) h₂
  obtain ⟨month, hMonth, _, h₄, rfl⟩ := exists_digits h₃
  obtain ⟨_, h₅, rfl⟩ := exists_mark (by decide) h₄
  obtain ⟨day, hDay, _, h₆, rfl⟩ := exists_digits h₅
  obtain ⟨_, h₇, rfl⟩ := exists_mark (by decide) h₆
  obtain ⟨hour, hHour, _, h₈, rfl⟩ := exists_digits h₇
  obtain ⟨_, h₉, rfl⟩ := exists_mark (by decide) h₈
  obtain ⟨minute, hMinute, _, h₁₀, rfl⟩ := exists_digits h₉
  obtain ⟨_, h₁₁, rfl⟩ := exists_mark (by decide) h₁₀
  obtain ⟨second, hSecond, _, h₁₂, rfl⟩ := exists_digits h₁₁
  obtain ⟨_, h₁₃, rfl⟩ := exists_mark (by decide) h₁₂
  obtain ⟨tenth, hTenth, _, h₁₄, rfl⟩ := exists_digit h₁₃
  obtain ⟨ofTenth, hOfTenth, _, h₁₅, rfl⟩ := exists_digits h₁₄
  obtain ⟨_, h₁₆, rfl⟩ := exists_mark (by decide) h₁₅
  obtain rfl := eq_nil_of_fits h₁₆
  refine ⟨100 * century + ofCentury, month, day, hour, minute, second, 100 * tenth + ofTenth,
    ⟨by omega, hMonth, hDay⟩, ⟨hHour, hMinute, hSecond, by omega⟩, ?_⟩
  have hFirst : (100 * century + ofCentury) / 1000 = century / 10 := by omega
  have hSecond : (100 * century + ofCentury) / 100 % 10 = century % 10 := by omega
  have hThird : (100 * century + ofCentury) / 10 % 10 = ofCentury / 10 := by omega
  have hFourth : (100 * century + ofCentury) % 10 = ofCentury % 10 := by omega
  have hTenths : (100 * tenth + ofTenth) / 100 = tenth := by omega
  have hRest : (100 * tenth + ofTenth) % 100 = ofTenth := by omega
  rw [Part.isoChars, hFirst, hSecond, hThird, hFourth, hTenths, hRest]
  rfl

theorem iso_of_read? {text : String} {d : Date} (hWritten : isWritten text = true) (h : read? text = some d)
    (hYear : 1000 ≤ d.dayPart.year) : d.iso = text := by
  obtain ⟨year, month, day, hour, minute, second, millis, ⟨hYears, hMonth, hDay⟩,
    ⟨hHour, hMinute, hSecond, hMillis⟩, hText⟩ := exists_isoChars hWritten
  have hFraction : Part.withFraction.date? text.toList = some d := by
    rw [read?] at h
    cases hFirst : Part.withFraction.date? text.toList with
    | some found =>
      rw [hFirst] at h
      exact h
    | none =>
      rw [hFirst] at h
      obtain ⟨t, hReads, -⟩ := Part.exists_reads_of_date? (p := Part.withoutFraction) h
      rw [hText] at hReads
      exact absurd hReads (Part.not_reads_withoutFraction hYears hMonth hDay hHour hMinute hSecond)
  obtain ⟨t, hReads, hTime⟩ := Part.exists_reads_of_date? hFraction
  rw [hText] at hReads
  obtain rfl := Part.reads_withFraction hYears hMonth hDay hHour hMinute hSecond hMillis hReads
  obtain ⟨d', hTime', hRange, hWall⟩ := ofWallTime_utc (isWallTime_of_ofWallTime hTime) rfl
  obtain rfl : d = d' := Except.ok.inj (hTime.symm.trans hTime')
  simp only [wallTime, cut, WallTime.mk.injEq, Int.natCast_inj, and_true] at hWall
  obtain ⟨hDate, hHours, hMinutes, hSeconds, hMicros⟩ := hWall
  have hParts : d.millis % millisPerDay % 1000 = millis := by omega
  rw [← String.toList_inj, toList_iso hYear hRange, hText, hDate, hHours, hMinutes, hSeconds, hParts]

end RecordCache.Date
