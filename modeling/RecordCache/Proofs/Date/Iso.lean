import Mathlib.Tactic.IntervalCases
import RecordCache.Date.Reader
import RecordCache.Proofs.Date.Calendar

/-!
# Dates read back

The wire text of a date is read as that date, from the year 1000 on: earlier years are written with fewer
than four digits, which no reading of a date takes.
-/

namespace RecordCache.Date

/-! ### Digits -/

def twoDigits (n : Nat) : List Char := [Nat.digitChar (n / 10), Nat.digitChar (n % 10)]

theorem toList_pad (width n : Nat) :
    (pad width n).toList =
      List.replicate (width - (Nat.toDigits 10 n).length) '0' ++ Nat.toDigits 10 n := by
  rw [pad, String.toList_ofList]

theorem toDigits_two {n : Nat} (hLow : 10 ≤ n) (hHigh : n < 100) : Nat.toDigits 10 n = twoDigits n := by
  rw [Nat.toDigits_of_base_le (by decide) hLow, Nat.toDigits_of_lt_base (by omega)]
  rfl

theorem toDigits_three {n : Nat} (hLow : 100 ≤ n) (hHigh : n < 1000) :
    Nat.toDigits 10 n = Nat.digitChar (n / 100) :: twoDigits (n % 100) := by
  have hHundreds : n / 10 / 10 = n / 100 := by omega
  have hTens : n / 10 % 10 = n % 100 / 10 := by omega
  have hOnes : n % 10 = n % 100 % 10 := by omega
  rw [Nat.toDigits_of_base_le (by decide) (by omega), toDigits_two (by omega) (by omega), twoDigits,
    hHundreds,
    hTens, hOnes]
  rfl

theorem toDigits_four {n : Nat} (hLow : 1000 ≤ n) (hHigh : n < 10000) :
    Nat.toDigits 10 n =
      [Nat.digitChar (n / 1000), Nat.digitChar (n / 100 % 10), Nat.digitChar (n / 10 % 10),
        Nat.digitChar (n % 10)] := by
  have hThousands : n / 10 / 100 = n / 1000 := by omega
  have hHundreds : n / 10 % 100 / 10 = n / 100 % 10 := by omega
  have hTens : n / 10 % 100 % 10 = n / 10 % 10 := by omega
  rw [Nat.toDigits_of_base_le (by decide) (by omega), toDigits_three (by omega) (by omega), twoDigits,
    hThousands,
    hHundreds, hTens]
  rfl

theorem toList_pad_two {n : Nat} (h : n < 100) : (pad 2 n).toList = twoDigits n := by
  rw [toList_pad]
  by_cases hLow : 10 ≤ n
  · rw [toDigits_two hLow h]
    rfl
  · rw [Nat.toDigits_of_lt_base (by omega), twoDigits, Nat.div_eq_of_lt (by omega),
      Nat.mod_eq_of_lt (by omega)]
    rfl

theorem toList_pad_three {n : Nat} (h : n < 1000) :
    (pad 3 n).toList = Nat.digitChar (n / 100) :: twoDigits (n % 100) := by
  rw [toList_pad]
  by_cases hLow : 100 ≤ n
  · rw [toDigits_three hLow h]
    rfl
  · rw [Nat.div_eq_of_lt (by omega), Nat.mod_eq_of_lt (a := n) (b := 100) (by omega)]
    by_cases hTwo : 10 ≤ n
    · rw [toDigits_two hTwo (by omega)]
      rfl
    · rw [Nat.toDigits_of_lt_base (by omega), twoDigits, Nat.div_eq_of_lt (by omega),
        Nat.mod_eq_of_lt (by omega)]
      rfl

theorem digitChar_isDigit {n : Nat} (h : n < 10) :
    (Nat.digitChar n).isDigit = true ∧ (Nat.digitChar n).toNat - '0'.toNat = n := by
  interval_cases n <;> decide

/-! ### Parts -/

namespace Part

variable {α β : Type}

/-- The preferred reading of a text: a value, and what is left of the text. -/
def Starts (p : Part α) (text : List Char) (a : α) (rest : List Char) : Prop :=
  ∃ more, p.run text = (a, rest) :: more

theorem Starts.pure (a : α) (text : List Char) : Starts (Pure.pure a) text a text := ⟨[], rfl⟩

theorem Starts.bind {p : Part α} {f : α → Part β} {text rest rest' : List Char} {a : α} {b : β}
    (hp : Starts p text a rest) (hf : Starts (f a) rest b rest') : Starts (p >>= f) text b rest' := by
  obtain ⟨more, hp⟩ := hp
  obtain ⟨more', hf⟩ := hf
  refine ⟨more' ++ more.flatMap fun e => (f e.1).run e.2, ?_⟩
  change (p.run text).flatMap (fun e => (f e.1).run e.2) = _
  rw [hp, List.flatMap_cons, hf]
  rfl

theorem Starts.either {p q : Part α} {text rest : List Char} {a : α} (hp : Starts p text a rest) :
    Starts (Part.either p q) text a rest := by
  obtain ⟨more, hp⟩ := hp
  refine ⟨more ++ q.run text, ?_⟩
  change p.run text ++ q.run text = _
  rw [hp]
  rfl

theorem Starts.pair {tens ones : Part Nat} {text middle rest : List Char} {a b : Nat}
    (ha : Starts tens text a middle) (hb : Starts ones middle b rest) :
    Starts (pair tens ones) text (10 * a + b) rest :=
  ha.bind (hb.bind (.pure _ _))

theorem starts_literal (c : Char) (rest : List Char) : Starts (literal c) (c :: rest) () rest := by
  refine ⟨[], ?_⟩
  simp [literal]

theorem starts_anyDigit {n : Nat} (h : n < 10) (rest : List Char) :
    Starts anyDigit (Nat.digitChar n :: rest) n rest := by
  interval_cases n <;> exact ⟨[], rfl⟩

theorem starts_year {n : Nat} (h : n < 10000) (rest : List Char) :
    Starts year
      (Nat.digitChar (n / 1000) :: Nat.digitChar (n / 100 % 10) :: Nat.digitChar (n / 10 % 10) ::
        Nat.digitChar (n % 10) :: rest) n rest := by
  have hYear : 10 * (10 * (10 * (n / 1000) + n / 100 % 10) + n / 10 % 10) + n % 10 = n := by omega
  have hStarts := (((starts_anyDigit (n := n / 1000) (by omega)
    (Nat.digitChar (n / 100 % 10) :: Nat.digitChar (n / 10 % 10) :: Nat.digitChar (n % 10) :: rest)).pair
    (starts_anyDigit (by omega) _)).pair (starts_anyDigit (by omega) _)).pair (starts_anyDigit (by omega) _)
  rwa [hYear] at hStarts

theorem starts_month {n : Nat} (hLow : 1 ≤ n) (hHigh : n ≤ 12) (rest : List Char) :
    Starts month (twoDigits n ++ rest) n rest := by
  interval_cases n <;> exact ⟨_, rfl⟩

theorem starts_day {n : Nat} (hLow : 1 ≤ n) (hHigh : n ≤ 31) (rest : List Char) :
    Starts day (twoDigits n ++ rest) n rest := by
  interval_cases n <;> exact ⟨_, rfl⟩

theorem starts_hour {n : Nat} (h : n < 24) (rest : List Char) :
    Starts hour (twoDigits n ++ rest) n rest := by
  interval_cases n <;> exact ⟨_, rfl⟩

theorem starts_minute {n : Nat} (h : n < 60) (rest : List Char) :
    Starts minute (twoDigits n ++ rest) n rest := by
  interval_cases n <;> exact ⟨_, rfl⟩

theorem starts_second {n : Nat} (h : n < 60) (rest : List Char) :
    Starts second (twoDigits n ++ rest) n rest := by
  interval_cases n <;> exact ⟨_, rfl⟩

theorem starts_millionths {n : Nat} (h : n < 1000) :
    Starts millionths (Nat.digitChar (n / 100) :: (twoDigits (n % 100) ++ ['Z'])) (n * 1000) ['Z'] := by
  obtain ⟨hFirst, hFirstValue⟩ := digitChar_isDigit (n := n / 100) (by omega)
  obtain ⟨hSecond, hSecondValue⟩ := digitChar_isDigit (n := n % 100 / 10) (by omega)
  obtain ⟨hThird, hThirdValue⟩ := digitChar_isDigit (n := n % 100 % 10) (by omega)
  have hStop : ('Z' : Char).isDigit = false := rfl
  simp only [Starts, millionths, twoDigits, List.cons_append, List.nil_append, List.take,
    List.takeWhile, hFirst,
    hSecond, hThird, hStop, List.length_cons, List.length_nil, List.range, List.range.loop, List.reverse,
    List.reverseAux, List.map_cons, List.foldl_cons, List.foldl_nil, hFirstValue, hSecondValue, hThirdValue,
    List.drop]
  refine ⟨_, List.cons_eq_cons.mpr ⟨Prod.ext ?_ rfl, rfl⟩⟩
  change (10 * (10 * (10 * 0 + n / 100) + n % 100 / 10) + n % 100 % 10) * 1000 = n * 1000
  omega

/-- The characters of the wire text. -/
def isoChars (year month day hour minute second millis : Nat) : List Char :=
  Nat.digitChar (year / 1000) :: Nat.digitChar (year / 100 % 10) :: Nat.digitChar (year / 10 % 10) ::
    Nat.digitChar (year % 10) :: '-' ::
    (twoDigits month ++ '-' :: (twoDigits day ++ 'T' :: (twoDigits hour ++
      ':' :: (twoDigits minute ++ ':' :: (twoDigits second ++
        '.' :: Nat.digitChar (millis / 100) :: (twoDigits (millis % 100) ++ ['Z']))))))

theorem starts_withFraction {t : WallTime} (hour minute second millis : Nat)
    (hValid : Calendar.isValid t.date = true)
    (hHour : hour < 24) (hMinute : minute < 60) (hSecond : second < 60) (hMillis : millis < 1000)
    (hTime : t = ⟨t.date, hour, minute, second, (millis * 1000 : Nat), some 0⟩) :
    Starts withFraction (isoChars t.date.year t.date.month t.date.day hour minute second millis) t [] := by
  simp only [Calendar.isValid, Bool.and_eq_true, decide_eq_true_eq] at hValid
  obtain ⟨⟨⟨⟨⟨hYearLow, hYearHigh⟩, hMonthLow⟩, hMonthHigh⟩, hDayLow⟩, hDayHigh⟩ := hValid
  have hDays := Calendar.daysInMonth_le t.date.year t.date.month
  have hYear : t.date.year < 10000 := by omega
  have hDay : t.date.day ≤ 31 := by omega
  rw [hTime]
  refine (starts_year hYear _).bind ((starts_literal _ _).bind ?_)
  refine (starts_month hMonthLow hMonthHigh _).bind ((starts_literal _ _).bind ?_)
  refine (starts_day hDayLow hDay _).bind ((starts_literal _ _).either.bind ?_)
  refine (starts_hour hHour _).bind ((starts_literal _ _).bind ?_)
  refine (starts_minute hMinute _).bind ((starts_literal _ _).bind ?_)
  refine (starts_second hSecond _).bind ?_
  refine ((starts_literal _ _).bind (starts_millionths hMillis)).bind ?_
  exact (starts_literal _ _).either.bind (.pure _ _)

end Part

/-- The wall clock that a date is written by. -/
def wallTime (d : Date) : WallTime :=
  ⟨d.dayPart, (d.millis % millisPerDay / 3600000 : Nat), (d.millis % millisPerDay / 60000 % 60 : Nat),
    (d.millis % millisPerDay / 1000 % 60 : Nat), (d.millis % millisPerDay % 1000 * 1000 : Nat), some 0⟩

theorem day_lt {d : Date} (h : d.millis < limit) : d.millis / millisPerDay < calendarDays :=
  Nat.div_lt_of_lt_mul (Nat.mul_comm calendarDays millisPerDay ▸ h)

theorem isValid_dayPart {d : Date} (h : d.millis < limit) : Calendar.isValid d.dayPart = true :=
  (Calendar.isValid_ofDayNumber (day_lt h)).1

theorem isPart_natCast (bound : Nat) {n : Nat} (h : n < bound) : isPart bound n = true := by
  simp [isPart, h]

theorem isWallTime_wallTime {d : Date} (h : d.millis < limit) : isWallTime d.wallTime = true := by
  have hParts : d.millis % millisPerDay < 86400000 := Nat.mod_lt _ (by decide)
  have hValid : Calendar.isValid d.wallTime.date = true := isValid_dayPart h
  have hHour : isPart 24 d.wallTime.hour = true := isPart_natCast 24 (by omega)
  have hMinute : isPart 60 d.wallTime.minute = true := isPart_natCast 60 (by omega)
  have hSecond : isPart 60 d.wallTime.second = true := isPart_natCast 60 (by omega)
  have hMicros : isPart 1000000 d.wallTime.microsecond = true := isPart_natCast 1000000 (by omega)
  rw [isWallTime, hValid, hHour, hMinute, hSecond, hMicros]
  rfl

theorem micros_wallTime {d : Date} (h : d.millis < limit) : micros d.wallTime / 1000 = d.millis := by
  have hNumber : Calendar.dayNumber d.wallTime.date = d.millis / millisPerDay :=
    (Calendar.isValid_ofDayNumber (day_lt h)).2
  rw [micros, hNumber]
  simp only [wallTime, microsPerMinute, millisPerDay, Option.getD_some]
  omega

theorem ofWallTime_wallTime {d : Date} (h : d.millis < limit) : ofWallTime d.wallTime = .ok d := by
  have hRange : (0 ≤ (d.millis : Int) && decide ((d.millis : Int) < limit)) = true := by
    simp [h]
  rw [ofWallTime, isWallTime_wallTime h, if_neg (by simp), micros_wallTime h, ofMillis?, if_pos hRange]
  rfl

/-- The wall clock cut to milliseconds. -/
def cut (t : WallTime) : WallTime := { t with microsecond := t.microsecond / 1000 * 1000, offset := some 0 }

theorem parts_of_isWallTime {t : WallTime} (h : isWallTime t = true) :
    Calendar.isValid t.date = true ∧ (0 ≤ t.hour ∧ t.hour < 24) ∧ (0 ≤ t.minute ∧ t.minute < 60) ∧
      (0 ≤ t.second ∧ t.second < 60) ∧ 0 ≤ t.microsecond ∧ t.microsecond < 1000000 := by
  simp only [isWallTime, isPart, Bool.and_eq_true, decide_eq_true_eq] at h
  obtain ⟨⟨⟨⟨⟨hDate, hHour⟩, hMinute⟩, hSecond⟩, hMicrosecond⟩, -⟩ := h
  exact ⟨hDate, hHour, hMinute, hSecond, hMicrosecond⟩

theorem isWallTime_of_ofWallTime {t : WallTime} {d : Date} (h : ofWallTime t = .ok d) : isWallTime t = true := by
  rw [ofWallTime] at h
  split at h
  · cases h
  · next hTime => simpa using hTime

/-- A wall clock that shows UTC shows a date of its own. -/
theorem ofWallTime_utc {t : WallTime} (h : isWallTime t = true) (hOffset : t.offset.getD 0 = 0) :
    ∃ d, ofWallTime t = .ok d ∧ d.millis < limit ∧ d.wallTime = cut t := by
  obtain ⟨hDate, hHour, hMinute, hSecond, hMicrosecond⟩ := parts_of_isWallTime h
  obtain ⟨-, -, -, -, -, hCalendar⟩ := Calendar.dayNumber_bounds hDate
  have hMicros : micros t / 1000 =
      (Calendar.dayNumber t.date : Int) * 86400000 +
        ((t.hour * 60 + t.minute) * 60000 + t.second * 1000 + t.microsecond / 1000) := by
    rw [micros, hOffset]
    simp only [millisPerDay, microsPerMinute]
    omega
  have hLimit : limit = calendarDays * 86400000 := rfl
  have hRange : (0 ≤ micros t / 1000 && decide (micros t / 1000 < limit)) = true := by
    rw [Bool.and_eq_true, decide_eq_true_eq, decide_eq_true_eq, hMicros, hLimit]
    omega
  refine ⟨⟨(micros t / 1000).toNat⟩, ?_, ?_, ?_⟩
  · rw [ofWallTime, h, ofMillis?, if_pos hRange]
    rfl
  · change (micros t / 1000).toNat < limit
    rw [hMicros, hLimit]
    omega
  · generalize hMillis : (micros t / 1000).toNat = millis
    have hDay : millis / millisPerDay = Calendar.dayNumber t.date := by
      rw [millisPerDay]
      omega
    have hTime : ((millis % millisPerDay : Nat) : Int) =
        (t.hour * 60 + t.minute) * 60000 + t.second * 1000 + t.microsecond / 1000 := by
      rw [millisPerDay]
      omega
    rw [wallTime, dayPart, hDay, Calendar.ofDayNumber_dayNumber hDate, cut]
    simp only [WallTime.mk.injEq, true_and, and_true]
    omega

theorem toList_iso {d : Date} (hYear : 1000 ≤ d.dayPart.year) (h : d.millis < limit) :
    d.iso.toList = Part.isoChars d.dayPart.year d.dayPart.month d.dayPart.day
      (d.millis % millisPerDay / 3600000)
      (d.millis % millisPerDay / 60000 % 60) (d.millis % millisPerDay / 1000 % 60)
      (d.millis % millisPerDay % 1000) := by
  have hParts : d.millis % millisPerDay < 86400000 := Nat.mod_lt _ (by decide)
  have hValid := isValid_dayPart h
  simp only [Calendar.isValid, Bool.and_eq_true, decide_eq_true_eq] at hValid
  obtain ⟨⟨⟨⟨⟨-, hYearHigh⟩, -⟩, hMonthHigh⟩, -⟩, hDayHigh⟩ := hValid
  have hDays := Calendar.daysInMonth_le d.dayPart.year d.dayPart.month
  have hYearText : (toString d.dayPart.year).toList = Nat.toDigits 10 d.dayPart.year := by
    rw [Nat.toString_eq_repr, Nat.repr_eq_ofList_toDigits, String.toList_ofList]
  simp only [iso, Part.isoChars, toString, String.toList_append] at hYearText ⊢
  have hMonth : d.dayPart.month < 100 := by omega
  have hDay : d.dayPart.day < 100 := by omega
  have hHour : d.millis % millisPerDay / 3600000 < 100 := by omega
  have hMinute : d.millis % millisPerDay / 60000 % 60 < 100 := by omega
  have hSecond : d.millis % millisPerDay / 1000 % 60 < 100 := by omega
  have hMillis : d.millis % millisPerDay % 1000 < 1000 := Nat.mod_lt _ (by decide)
  rw [hYearText, toDigits_four hYear (by omega), toList_pad_two hMonth, toList_pad_two hDay,
    toList_pad_two hHour,
    toList_pad_two hMinute, toList_pad_two hSecond, toList_pad_three hMillis]
  simp only [List.append_assoc]
  rfl

theorem read?_iso {d : Date} (hYear : 1000 ≤ d.dayPart.year) (h : d.millis < limit) :
    read? d.iso = some d := by
  have hParts : d.millis % millisPerDay < 86400000 := Nat.mod_lt _ (by decide)
  obtain ⟨more, hRun⟩ := Part.starts_withFraction (t := d.wallTime) (d.millis % millisPerDay / 3600000)
    (d.millis % millisPerDay / 60000 % 60) (d.millis % millisPerDay / 1000 % 60)
      (d.millis % millisPerDay % 1000)
    (isValid_dayPart h) (by omega) (by omega) (by omega) (by omega) rfl
  have hFraction : Part.withFraction.date? d.iso.toList = some d := by
    have hChars : d.iso.toList =
        Part.isoChars d.wallTime.date.year d.wallTime.date.month d.wallTime.date.day _ _ _ _ :=
          toList_iso hYear h
    rw [Part.date?, hChars, hRun]
    change (ofWallTime d.wallTime).toOption = some d
    rw [ofWallTime_wallTime h]
    rfl
  rw [read?, hFraction]
  rfl

end RecordCache.Date
