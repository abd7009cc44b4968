import RecordCache.Date

/-!
# Days and dates

Up to the year 9999 every day has one date, and the date has the number of the day. The other way round, a
date that exists is the one of its day.
-/

namespace RecordCache.Calendar

theorem isLeap_iff (year : Nat) :
    isLeap year = true ↔ year % 4 = 0 ∧ (year % 100 ≠ 0 ∨ year % 400 = 0) := by
  simp [isLeap]

/-- The estimate of a year, in whole cycles of 400 years. -/
theorem daysBeforeYear_estimate {n : Nat} (h : n < Date.calendarDays) :
    daysBeforeYear (n * 400 / 146097 + 1 - 1) ≤ n ∧ n < daysBeforeYear (n * 400 / 146097 + 1 + 2) := by
  have hDays : n < 3652059 := h
  have hLow := Nat.div_mul_le_self (n * 400) 146097
  have hHigh := Nat.lt_div_mul_add (a := n * 400) (b := 146097) (by decide)
  generalize n * 400 / 146097 = y at *
  simp only [daysBeforeYear]
  omega

theorem yearOf_bounds {n : Nat} (h : n < Date.calendarDays) :
    1 ≤ yearOf n ∧ yearOf n ≤ 9999 ∧ daysBeforeYear (yearOf n) ≤ n ∧ n < daysBeforeYear (yearOf n + 1) := by
  have hDays : n < 3652059 := h
  obtain ⟨hLow, hHigh⟩ := daysBeforeYear_estimate h
  have hEstimate : n * 400 / 146097 ≤ 9998 := by omega
  have hFirst : daysBeforeYear 1 = 0 := rfl
  have hEnd : daysBeforeYear 10000 = 3652059 := rfl
  unfold yearOf
  generalize n * 400 / 146097 = y at *
  dsimp only
  -- the estimate is right, or off by one in either direction
  split
  · next hBelow =>
    have hPositive : y ≠ 0 := by
      rintro rfl
      simp [hFirst] at hBelow
    have hBack : y + 1 - 1 + 1 = y + 1 := by omega
    refine ⟨by omega, by omega, hLow, ?_⟩
    rw [hBack]
    exact hBelow
  · next hFrom =>
    split
    · next hAbove =>
      have hLast : y ≠ 9998 := by
        rintro rfl
        rw [hEnd] at hAbove
        omega
      exact ⟨by omega, by omega, hAbove, hHigh⟩
    · next hBelow => exact ⟨by omega, by omega, by omega, by omega⟩

theorem foldr_monthLengths (leap : Bool) :
    (monthLengths leap).foldr (· + ·) 0 = if leap then 366 else 365 := by
  cases leap <;> rfl

theorem succ_div_of_dvd {y k : Nat} (h : (y + 1) % k = 0) : (y + 1) / k = y / k + 1 := by
  obtain ⟨q, hq⟩ := Nat.dvd_of_mod_eq_zero h
  rw [Nat.succ_div, if_pos ⟨q, hq⟩]

theorem succ_div_of_not_dvd {y k : Nat} (h : (y + 1) % k ≠ 0) : (y + 1) / k = y / k := by
  rw [Nat.succ_div, if_neg fun hd => h (Nat.mod_eq_zero_of_dvd hd)]
  rfl

theorem daysBeforeYear_succ {year : Nat} (h : 1 ≤ year) :
    daysBeforeYear (year + 1) = daysBeforeYear year + (monthLengths (isLeap year)).foldr (· + ·) 0 := by
  obtain ⟨y, rfl⟩ : ∃ y, year = y + 1 := ⟨year - 1, by omega⟩
  rw [foldr_monthLengths]
  have hLeap := isLeap_iff (y + 1)
  simp only [daysBeforeYear, Nat.add_sub_cancel]
  by_cases h4 : (y + 1) % 4 = 0
  · by_cases h100 : (y + 1) % 100 = 0
    · by_cases h400 : (y + 1) % 400 = 0
      · rw [if_pos (hLeap.mpr ⟨h4, .inr h400⟩)]
        have := succ_div_of_dvd h4
        have := succ_div_of_dvd h100
        have := succ_div_of_dvd h400
        omega
      · rw [if_neg fun hl => (hLeap.mp hl).2.elim (· h100) h400]
        have := succ_div_of_dvd h4
        have := succ_div_of_dvd h100
        have := succ_div_of_not_dvd h400
        omega
    · rw [if_pos (hLeap.mpr ⟨h4, .inl h100⟩)]
      have := succ_div_of_dvd h4
      have := succ_div_of_not_dvd h100
      have : (y + 1) % 400 ≠ 0 := by omega
      have := succ_div_of_not_dvd this
      omega
  · rw [if_neg fun hl => h4 (hLeap.mp hl).1]
    have := succ_div_of_not_dvd h4
    have h100 : (y + 1) % 100 ≠ 0 := by omega
    have := succ_div_of_not_dvd h100
    have h400 : (y + 1) % 400 ≠ 0 := by omega
    have := succ_div_of_not_dvd h400
    omega

theorem monthDay_bounds (month : Nat) (lengths : List Nat) {n : Nat} (h : n < lengths.foldr (· + ·) 0) :
    ∃ i length, (monthDay month lengths n).1 = month + i ∧ lengths[i]? = some length ∧
      1 ≤ (monthDay month lengths n).2 ∧ (monthDay month lengths n).2 ≤ length ∧
      (lengths.take i).foldr (· + ·) 0 + ((monthDay month lengths n).2 - 1) = n := by
  induction lengths generalizing month n with
  | nil => simp at h
  | cons length rest ih =>
    rw [monthDay]
    split
    · next hDay => exact ⟨0, length, rfl, rfl, by simp, hDay, by simp⟩
    · next hDay =>
      rw [List.foldr_cons] at h
      obtain ⟨i, found, hMonth, hFound, hLow, hHigh, hSum⟩ := ih (month + 1) (n := n - length) (by omega)
      refine ⟨i + 1, found, by omega, hFound, hLow, hHigh, ?_⟩
      rw [List.take_succ_cons, List.foldr_cons]
      omega

theorem length_monthLengths (leap : Bool) : (monthLengths leap).length = 12 := rfl

theorem daysInMonth_le (year month : Nat) : daysInMonth year month ≤ 31 := by
  have hLengths : ∀ leap, ∀ length ∈ monthLengths leap, length ≤ 31 := by decide
  rw [daysInMonth]
  cases h : (monthLengths (isLeap year))[month - 1]? with
  | none => exact Nat.zero_le _
  | some length => exact hLengths _ _ (List.mem_of_getElem? h)

theorem foldl_add_eq (lengths : List Nat) (n : Nat) :
    lengths.foldl (· + ·) n = n + lengths.foldr (· + ·) 0 := by
  induction lengths generalizing n with
  | nil => rfl
  | cons length rest ih => rw [List.foldl_cons, ih, List.foldr_cons, Nat.add_assoc]

theorem isValid_ofDayNumber {n : Nat} (h : n < Date.calendarDays) :
    isValid (ofDayNumber n) = true ∧ dayNumber (ofDayNumber n) = n := by
  obtain ⟨hFirst, hLast, hBefore, hAfter⟩ := yearOf_bounds h
  rw [daysBeforeYear_succ hFirst] at hAfter
  obtain ⟨i, length, hMonth, hLength, hLow, hHigh, hSum⟩ :=
    monthDay_bounds 1 (monthLengths (isLeap (yearOf n))) (n := n - daysBeforeYear (yearOf n)) (by omega)
  have hIndex : i < 12 := by
    rw [← length_monthLengths (isLeap (yearOf n))]
    exact (List.getElem?_eq_some_iff.mp hLength).1
  have hBack : 1 + i - 1 = i := by omega
  constructor
  · simp only [isValid, ofDayNumber, daysInMonth, hMonth, hBack, hLength, Option.getD_some,
      Bool.and_eq_true,
      decide_eq_true_eq]
    omega
  · simp only [dayNumber, ofDayNumber, daysBeforeMonth, hMonth, hBack, foldl_add_eq]
    omega

theorem daysBeforeYear_mono {year later : Nat} (h : year ≤ later) :
    daysBeforeYear year ≤ daysBeforeYear later := by
  induction h with
  | refl => exact Nat.le_refl _
  | @step later hLater ih =>
    refine Nat.le_trans ih ?_
    rcases Nat.eq_zero_or_pos later with rfl | hPositive
    · exact Nat.le_refl _
    · rw [Nat.succ_eq_add_one, daysBeforeYear_succ hPositive]
      exact Nat.le_add_right _ _

/-- What is left of a list of months beyond a day of one of them. -/
theorem foldr_take_lt {lengths : List Nat} {i length day : Nat} (hLength : lengths[i]? = some length)
    (hLow : 1 ≤ day) (hHigh : day ≤ length) :
    (lengths.take i).foldr (· + ·) 0 + (day - 1) < lengths.foldr (· + ·) 0 := by
  induction lengths generalizing i with
  | nil => cases hLength
  | cons first rest ih =>
    cases i with
    | zero =>
      cases hLength
      rw [List.take_zero, List.foldr_nil, List.foldr_cons]
      omega
    | succ i =>
      have hRest := ih (i := i) hLength
      rw [List.take_succ_cons, List.foldr_cons, List.foldr_cons]
      omega

theorem monthDay_foldr_take (month : Nat) {lengths : List Nat} {i length day : Nat}
    (hLength : lengths[i]? = some length) (hLow : 1 ≤ day) (hHigh : day ≤ length) :
    monthDay month lengths ((lengths.take i).foldr (· + ·) 0 + (day - 1)) = (month + i, day) := by
  induction lengths generalizing month i with
  | nil => cases hLength
  | cons first rest ih =>
    cases i with
    | zero =>
      cases hLength
      rw [List.take_zero, List.foldr_nil, monthDay, if_pos (by omega)]
      exact Prod.ext rfl (by dsimp only; omega)
    | succ i =>
      have hRest := ih (month + 1) (i := i) hLength
      rw [List.take_succ_cons, List.foldr_cons, monthDay, if_neg (by omega)]
      rw [show first + (rest.take i).foldr (· + ·) 0 + (day - 1) - first =
        (rest.take i).foldr (· + ·) 0 + (day - 1) by omega, hRest]
      exact Prod.ext (by dsimp only; omega) rfl

/-- The year of a day is the only one that holds it. -/
theorem yearOf_eq {n year : Nat} (hDays : n < Date.calendarDays) (hLow : daysBeforeYear year ≤ n)
    (hHigh : n < daysBeforeYear (year + 1)) : yearOf n = year := by
  obtain ⟨-, -, hBefore, hAfter⟩ := yearOf_bounds hDays
  rcases Nat.lt_trichotomy (yearOf n) year with hEarlier | hSame | hLater
  · exact absurd (Nat.lt_of_lt_of_le hAfter (daysBeforeYear_mono hEarlier)) (Nat.not_lt.mpr hLow)
  · exact hSame
  · exact absurd (Nat.lt_of_lt_of_le hHigh (daysBeforeYear_mono hLater)) (Nat.not_lt.mpr hBefore)

theorem dayNumber_bounds {c : Civil} (h : isValid c = true) :
    ∃ length, (monthLengths (isLeap c.year))[c.month - 1]? = some length ∧ c.day ≤ length ∧
      dayNumber c = daysBeforeYear c.year +
        (((monthLengths (isLeap c.year)).take (c.month - 1)).foldr (· + ·) 0 + (c.day - 1)) ∧
      dayNumber c < daysBeforeYear (c.year + 1) ∧ dayNumber c < Date.calendarDays := by
  simp only [isValid, Bool.and_eq_true, decide_eq_true_eq] at h
  obtain ⟨⟨⟨⟨⟨hYear, hLast⟩, hMonth⟩, hDecember⟩, hFirst⟩, hDay⟩ := h
  have hIndex : c.month - 1 < (monthLengths (isLeap c.year)).length := by
    rw [length_monthLengths]
    omega
  obtain ⟨length, hLength⟩ : ∃ length, (monthLengths (isLeap c.year))[c.month - 1]? = some length :=
    ⟨_, List.getElem?_eq_getElem hIndex⟩
  rw [daysInMonth, hLength, Option.getD_some] at hDay
  have hNumber : dayNumber c = daysBeforeYear c.year +
      (((monthLengths (isLeap c.year)).take (c.month - 1)).foldr (· + ·) 0 + (c.day - 1)) := by
    rw [dayNumber, daysBeforeMonth, foldl_add_eq]
    omega
  have hWithin := foldr_take_lt hLength hFirst hDay
  have hNext := daysBeforeYear_succ hYear
  have hEnd : daysBeforeYear 10000 = Date.calendarDays := rfl
  have hCalendar := daysBeforeYear_mono (show c.year + 1 ≤ 10000 by omega)
  exact ⟨length, hLength, hDay, hNumber, by omega, by omega⟩

theorem ofDayNumber_dayNumber {c : Civil} (h : isValid c = true) : ofDayNumber (dayNumber c) = c := by
  obtain ⟨length, hLength, hDay, hNumber, hNext, hCalendar⟩ := dayNumber_bounds h
  simp only [isValid, Bool.and_eq_true, decide_eq_true_eq] at h
  obtain ⟨⟨⟨⟨-, hMonth⟩, -⟩, hFirst⟩, -⟩ := h
  have hYear : yearOf (dayNumber c) = c.year := yearOf_eq hCalendar (by omega) hNext
  simp only [ofDayNumber, hYear]
  rw [hNumber, Nat.add_sub_cancel_left, monthDay_foldr_take 1 hLength hFirst hDay]
  cases c
  simp only [Civil.mk.injEq, true_and, and_true]
  simp only at hMonth
  omega

end RecordCache.Calendar
