import StackGraph.Proofs.Digits
/-!
# Points in time read back

The text of a point in time names a date of the Gregorian calendar and a time
of day, and reading it must find the seconds again. That rests on the calendar:
counting the days up to a date inverts finding the date of a day, era by era
of 400 years.

A fraction is written with three, six or nine digits and read by filling up
with zeros; a leap second is written as the second 60 of its minute. So every
point in time has a text, and texts denote nothing but points in time
(`Timestamp.isPoint_iff`).

The bounds of the parts admit more than that. They also allow a leap second
behind any other second of a minute, and such a one has the text of the second
that follows. Reading settles it there (`Timestamp.InBounds.read?_text`).
-/

namespace StackGraph.Timestamp

/-! ### The calendar -/

section Calendar

/-- The year of its era in which a day of the era lies. -/
def yearOfEra (d : Int) : Int := (d - d / 1460 + d / 36524 - d / 146096) / 365

/-- The place of a day of an era in its year. -/
def dayOfYear (d : Int) : Int :=
  d - (365 * yearOfEra d + yearOfEra d / 4 - yearOfEra d / 100)

/-- The month, counted from March, in which a day of a year lies. -/
def monthOfYear (n : Int) : Int := (5 * n + 2) / 153

/-- The month of the calendar. -/
def calendarMonth (m : Int) : Int := if m < 10 then m + 3 else m - 9

/-- The place of a day of a year in its month. -/
def dayOfMonth (n : Int) : Int := n - (153 * monthOfYear n + 2) / 5 + 1

variable {d n days : Int}

theorem yearOfEra_nonneg (h0 : 0 ≤ d) (h : d < 146097) : 0 ≤ yearOfEra d := by
  rw [yearOfEra]
  omega

theorem yearOfEra_lt (h0 : 0 ≤ d) (h : d < 146097) : yearOfEra d < 400 := by
  rw [yearOfEra]
  omega

/-- Centuries have 36524 days, but the last one of an era has one more. -/
theorem yearOfEra_div (h0 : 0 ≤ d) (h : d < 146096) : yearOfEra d / 100 = d / 36524 := by
  have hcentury : d / 36524 = 0 ∨ d / 36524 = 1 ∨ d / 36524 = 2 ∨ d / 36524 = 3 := by omega
  rw [yearOfEra]
  rcases hcentury with hc | hc | hc | hc <;> omega

theorem dayOfYear_nonneg (h0 : 0 ≤ d) (h : d < 146097) : 0 ≤ dayOfYear d := by
  by_cases hlast : d = 146096
  · subst hlast
    decide
  · have hdiv := yearOfEra_div h0 (by omega : d < 146096)
    rw [dayOfYear]
    rw [yearOfEra] at hdiv ⊢
    omega

theorem dayOfYear_le (h0 : 0 ≤ d) (h : d < 146097) : dayOfYear d ≤ 366 := by
  rw [dayOfYear, yearOfEra]
  omega

/-- A month of the calendar, and the months before it have the days that are
counted. -/
theorem calendarMonth_spec (h0 : 0 ≤ n) (h : n ≤ 366) :
    1 ≤ calendarMonth (monthOfYear n) ∧ calendarMonth (monthOfYear n) ≤ 12 ∧
      (calendarMonth (monthOfYear n) + 9) % 12 = monthOfYear n := by
  have hm : 0 ≤ monthOfYear n ∧ monthOfYear n ≤ 11 := by
    rw [monthOfYear]
    omega
  rw [calendarMonth]
  split <;> omega

theorem dayOfMonth_spec : 1 ≤ dayOfMonth n ∧ dayOfMonth n ≤ 31 := by
  rw [dayOfMonth, monthOfYear]
  omega

/-- The place of a day in its era of 400 years, which starts in March. -/
def dayOfEra (days : Int) : Int := (days + 719468) % 146097

theorem dayOfEra_nonneg : 0 ≤ dayOfEra days := Int.emod_nonneg _ (by decide)

theorem dayOfEra_lt : dayOfEra days < 146097 := Int.emod_lt_of_pos _ (by decide)

theorem dateOfDays_eq : dateOfDays days =
    (yearOfEra (dayOfEra days) + (days + 719468) / 146097 * 400 +
        (if calendarMonth (monthOfYear (dayOfYear (dayOfEra days))) ≤ 2 then 1 else 0),
      calendarMonth (monthOfYear (dayOfYear (dayOfEra days))),
      dayOfMonth (dayOfYear (dayOfEra days))) := by
  have hera : days + 719468 - (days + 719468) / 146097 * 146097 = dayOfEra days := by
    rw [dayOfEra]
    omega
  rw [← hera]
  rfl

theorem dayOfYear_dayOfEra (days : Int) :
    0 ≤ dayOfYear (dayOfEra days) ∧ dayOfYear (dayOfEra days) ≤ 366 :=
  ⟨dayOfYear_nonneg dayOfEra_nonneg dayOfEra_lt, dayOfYear_le dayOfEra_nonneg dayOfEra_lt⟩

theorem month_dateOfDays (days : Int) :
    1 ≤ (dateOfDays days).2.1 ∧ (dateOfDays days).2.1 ≤ 12 := by
  obtain ⟨h0, h⟩ := dayOfYear_dayOfEra days
  rw [dateOfDays_eq]
  obtain ⟨hlow, hhigh, -⟩ := calendarMonth_spec h0 h
  exact ⟨hlow, hhigh⟩

theorem day_dateOfDays (days : Int) :
    1 ≤ (dateOfDays days).2.2 ∧ (dateOfDays days).2.2 ≤ 31 := by
  rw [dateOfDays_eq]
  exact dayOfMonth_spec

/-- The days up to a date, by the place of its year in an era. -/
theorem daysOfDate_era {y era month day : Int} (h0 : 0 ≤ y) (h : y < 400) :
    daysOfDate (y + era * 400 + if month ≤ 2 then 1 else 0) month day
      = era * 146097 + (365 * y + y / 4 - y / 100) +
        ((153 * ((month + 9) % 12) + 2) / 5 + day - 1) - 719468 := by
  have hyear : (if month ≤ 2 then (y + era * 400 + if month ≤ 2 then 1 else 0) - 1
      else (y + era * 400 + if month ≤ 2 then 1 else 0)) = y + era * 400 := by
    split <;> omega
  have hera : (y + era * 400) / 400 = era := by omega
  simp only [daysOfDate, hyear, hera]
  rw [show y + era * 400 - era * 400 = y by omega]
  omega

/-- **Counting the days up to the date of a day gives the day.** -/
theorem daysOfDate_dateOfDays (days : Int) :
    daysOfDate (dateOfDays days).1 (dateOfDays days).2.1 (dateOfDays days).2.2 = days := by
  obtain ⟨h0, h⟩ := dayOfYear_dayOfEra days
  obtain ⟨-, -, hmonth⟩ := calendarMonth_spec h0 h
  rw [dateOfDays_eq]
  dsimp only
  rw [daysOfDate_era (yearOfEra_nonneg dayOfEra_nonneg dayOfEra_lt)
    (yearOfEra_lt dayOfEra_nonneg dayOfEra_lt), hmonth, dayOfMonth]
  -- The days before the year and the place in it add up to the place in the era.
  have hplace : dayOfYear (dayOfEra days) = dayOfEra days - (365 * yearOfEra (dayOfEra days) +
    yearOfEra (dayOfEra days) / 4 - yearOfEra (dayOfEra days) / 100) := rfl
  have hera : dayOfEra days = (days + 719468) % 146097 := rfl
  omega

end Calendar

/-! ### The parts of a text -/

section Parts

variable {most width n : Nat} {rest : List Char} {year : Int}

/-- A number is read back if it has no more digits than are taken. -/
theorem number?_padded (hlen : (padded width n).toList.length ≤ most) (hrest : EndsDigits rest) :
    number? most ((padded width n).toList ++ rest) = some (n, rest) := by
  have hdigits : ∀ c ∈ (padded width n).toList, c.isDigit := fun _ => isDigit_of_mem_padded
  rw [number?, Text.takeWhile_digits hdigits hrest, List.take_of_length_le hlen,
    if_neg (by simpa using padded_ne_nil), Text.natValue?_eq padded_ne_nil hdigits,
    ofDigitChars_padded, Option.map_some, List.drop_left]

/-- A number starts with a digit. -/
theorem exists_padded_eq_cons (width n : Nat) :
    ∃ c ds, (padded width n).toList = c :: ds ∧ c.isDigit := by
  obtain ⟨c, ds, hcons⟩ := List.exists_cons_of_ne_nil
    (padded_ne_nil : (padded width n).toList ≠ [])
  exact ⟨c, ds, hcons, isDigit_of_mem_padded (hcons ▸ List.mem_cons_self)⟩

theorem skipBlanks_padded :
    skipBlanks ((padded width n).toList ++ rest) = (padded width n).toList ++ rest := by
  obtain ⟨c, ds, hcons, hdigit⟩ := exists_padded_eq_cons width n
  rw [hcons]
  exact List.dropWhile_cons_of_neg (ne_true_of_eq_false (Text.not_isBlank_of_isDigit hdigit))

/-- Behind a sign a year may have any number of digits. -/
theorem year?_minus : year? ('-' :: rest)
    = (number? rest.length rest).map fun (n, rest) => (-Int.ofNat n, rest) := rfl

theorem year?_plus : year? ('+' :: rest)
    = (number? rest.length rest).map fun (n, rest) => (Int.ofNat n, rest) := rfl

/-- No sign stands before the digits of a year, unless it needs one. -/
theorem year?_yearText (hrest : EndsDigits rest) :
    year? ((yearText year).toList ++ rest) = some (year, rest) := by
  have hmost : (padded 4 year.natAbs).toList.length
      ≤ ((padded 4 year.natAbs).toList ++ rest).length := by
    rw [List.length_append]
    exact Nat.le_add_right _ _
  rw [yearText]
  split
  case isTrue hneg =>
    simp only [String.toList_append, String.reduceToList, List.cons_append, List.nil_append]
    rw [year?_minus, number?_padded hmost hrest, Option.map_some]
    have hyear : -Int.ofNat year.natAbs = year := by
      rw [Int.ofNat_eq_natCast]
      omega
    exact congrArg (fun y => some (y, rest)) hyear
  case isFalse hneg =>
    have hyear : Int.ofNat year.natAbs = year := by
      rw [Int.ofNat_eq_natCast]
      omega
    split
    case isTrue hshort =>
      rw [String.empty_append, year?, skipBlanks_padded]
      obtain ⟨c, ds, hcons, hdigit⟩ := exists_padded_eq_cons 4 year.natAbs
      split
      case h_1 h =>
        rw [hcons, List.cons_append, List.cons.injEq] at h
        exact absurd (h.1 ▸ hdigit) (by decide)
      case h_2 h =>
        rw [hcons, List.cons_append, List.cons.injEq] at h
        exact absurd (h.1 ▸ hdigit) (by decide)
      case h_3 =>
        rw [number?_padded (Nat.le_of_eq (length_padded (by decide)
          (show year.natAbs < 10000 by omega))) hrest, Option.map_some]
        exact congrArg (fun y => some (y, rest)) hyear
    case isFalse hlong =>
      simp only [String.toList_append, String.reduceToList, List.cons_append, List.nil_append]
      rw [year?_plus, number?_padded hmost hrest, Option.map_some]
      exact congrArg (fun y => some (y, rest)) hyear

/-- A number of two digits is read back behind its separator. -/
theorem further?_padded {c : Char} (hc : Text.isBlank c = false) (hn : n < 100)
    (hrest : EndsDigits rest) :
    further? c (c :: ((padded 2 n).toList ++ rest)) = some (n, rest) := by
  rw [further?, skipBlanks, List.dropWhile_cons_of_neg (ne_true_of_eq_false hc)]
  dsimp only
  rw [if_pos rfl, skipBlanks_padded,
    number?_padded (Nat.le_of_eq (length_padded (by decide) hn)) hrest]

/-- **Fewer than nine digits of a fraction are filled up.** -/
theorem nanos?_padded (hwidth : 0 < width) (hn : n < Nat.pow 10 width) (hnine : width ≤ 9)
    (hrest : EndsDigits rest) :
    nanos? ('.' :: ((padded width n).toList ++ rest))
      = some (n * Nat.pow 10 (9 - width), rest) := by
  have hdigits : ∀ c ∈ (padded width n).toList, c.isDigit := fun _ => isDigit_of_mem_padded
  have hlen := length_padded hwidth hn
  have hfill : ((padded width n).toList ++ List.replicate 9 '0').take 9
      = (padded width n).toList ++ List.replicate (9 - width) '0' := by
    rw [List.take_append, hlen, List.take_of_length_le (Nat.le_trans (Nat.le_of_eq hlen) hnine),
      List.take_replicate, Nat.min_eq_left (Nat.sub_le 9 width)]
  rw [nanos?, Text.takeWhile_digits hdigits hrest, Text.dropWhile_digits hdigits hrest,
    if_neg (by simpa using padded_ne_nil), hfill, Text.natValue?_eq, Nat.ofDigitChars_append,
    ofDigitChars_padded, Nat.ofDigitChars_replicate_zero, Option.map_some, Nat.mul_comm]
  · rfl
  · exact List.append_ne_nil_of_left_ne_nil padded_ne_nil _
  · intro c hc
    rcases List.mem_append.1 hc with h | h
    · exact hdigits c h
    · rw [(List.mem_replicate.1 h).2]
      decide

/-- A fraction stands for the nanoseconds below a second. -/
theorem nanos?_fraction :
    nanos? ((fraction n).toList ++ ['Z']) = some (n % 1000000000, ['Z']) := by
  have hread : ∀ width m, 0 < width → width ≤ 9 → m < Nat.pow 10 width →
      m * Nat.pow 10 (9 - width) = n % 1000000000 →
      nanos? (("." ++ padded width m).toList ++ ['Z']) = some (n % 1000000000, ['Z']) := by
    intro width m hwidth hnine hm heq
    simp only [String.toList_append, String.reduceToList, List.cons_append, List.nil_append]
    rw [nanos?_padded hwidth hm hnine (endsDigits_cons rfl), heq]
  simp only [fraction]
  split
  case isTrue hzero =>
    rw [hzero]
    rfl
  case isFalse =>
    split
    · exact hread 3 _ (by decide) (by decide) (show _ < 1000 by omega)
        (show _ * 1000000 = _ by omega)
    · split
      · exact hread 6 _ (by decide) (by decide) (show _ < 1000000 by omega)
          (show _ * 1000 = _ by omega)
      · exact hread 9 _ (by decide) (by decide) (show _ < 1000000000 by omega)
          (show _ * 1 = _ by omega)

end Parts

/-! ### The whole text -/

/-- The bounds of what a point in time is made of: at most two seconds' worth of
nanoseconds, and a year that points in time may lie in. -/
structure InBounds (t : Timestamp) : Prop where
  nanos_lt : t.nanos < 2000000000
  isYear : isYear (dateOfDays (t.seconds / 86400)).1

/-- **A leap second is in place** behind the last second of a minute. -/
def IsInPlace (t : Timestamp) : Prop := 1000000000 ≤ t.nanos → t.seconds % 60 = 59

instance : DecidablePred IsInPlace := fun t =>
  inferInstanceAs (Decidable (1000000000 ≤ t.nanos → t.seconds % 60 = 59))

/-- There is such a point in time. -/
structure IsPoint (t : Timestamp) : Prop extends t.InBounds where
  isInPlace : t.IsInPlace

/-- The point in time with its leap second moved into the next second, if it is
not in place. -/
def settled (t : Timestamp) : Timestamp :=
  if t.IsInPlace then t else ⟨t.seconds + 1, t.nanos - 1000000000⟩

/-- The date in universal time, as year, month and day. -/
def date (t : Timestamp) : Int × Int × Int := dateOfDays (t.seconds / 86400)

/-- The seconds since the start of the day. -/
def timeOfDay (t : Timestamp) : Nat := (t.seconds % 86400).toNat

/-- The second of the minute, which is the sixtieth in a leap second. -/
def second (t : Timestamp) : Nat := t.timeOfDay % 60 + t.nanos / 1000000000

variable {t : Timestamp}

theorem toList_text : (t.text "Z").toList
    = (yearText t.date.1).toList ++ '-' :: ((padded 2 t.date.2.1.toNat).toList ++ '-' ::
      ((padded 2 t.date.2.2.toNat).toList ++ 'T' ::
      ((padded 2 (t.timeOfDay / 3600)).toList ++ ':' ::
      ((padded 2 (t.timeOfDay / 60 % 60)).toList ++ ':' :: ((padded 2 t.second).toList ++
      ((fraction t.nanos).toList ++ ['Z'])))))) := by
  simp only [text, date, timeOfDay, second, String.toList_append, String.reduceToList,
    List.append_assoc, List.cons_append, List.nil_append]

theorem timeOfDay_lt : t.timeOfDay < 86400 := by
  rw [timeOfDay]
  omega

theorem IsPoint.second_le (h : t.IsPoint) : t.second ≤ 60 := by
  have hleap : 1000000000 ≤ t.nanos → t.seconds % 60 = 59 := h.isInPlace
  have hnanos := h.nanos_lt
  rw [second, timeOfDay]
  omega

/-- A leap second counts as the one before it. -/
theorem IsPoint.seconds_eq (h : t.IsPoint) :
    t.seconds / 86400 * 86400 + Int.ofNat (t.timeOfDay / 3600 * 3600 + t.timeOfDay / 60 % 60 * 60 +
      (t.second - t.second / 60)) - 0 = t.seconds := by
  have hleap : 1000000000 ≤ t.nanos → t.seconds % 60 = 59 := h.isInPlace
  have hnanos := h.nanos_lt
  rw [second, timeOfDay, Int.ofNat_eq_natCast]
  omega

theorem IsPoint.nanos_eq (h : t.IsPoint) :
    t.nanos % 1000000000 + t.second / 60 * 1000000000 = t.nanos := by
  have hleap : 1000000000 ≤ t.nanos → t.seconds % 60 = 59 := h.isInPlace
  have hnanos := h.nanos_lt
  rw [second, timeOfDay]
  omega

/-- A fraction and what follows it are no further digits. -/
theorem endsDigits_fraction {n : Nat} : EndsDigits ((fraction n).toList ++ ['Z']) := by
  have hpoint : ∀ s : String, EndsDigits (("." ++ s).toList ++ ['Z']) := by
    intro s
    rw [String.toList_append]
    exact endsDigits_cons rfl
  simp only [fraction]
  split
  · exact endsDigits_cons rfl
  · split
    · exact hpoint _
    · split
      · exact hpoint _
      · exact hpoint _

theorem isReal_dateOfDays {days : Int} {hour minute second : Nat}
    (hyear : isYear (dateOfDays days).1) (hhour : hour < 24) (hminute : minute < 60)
    (hsecond : second ≤ 60) :
    isReal (dateOfDays days).1 (dateOfDays days).2.1.toNat (dateOfDays days).2.2.toNat hour minute
      second = true := by
  have hmonth := month_dateOfDays days
  have hday := day_dateOfDays days
  rw [isReal, Int.toNat_of_nonneg (by omega), Int.toNat_of_nonneg (by omega),
    daysOfDate_dateOfDays]
  simp only [hyear, beq_self_eq_true, Bool.true_and, Bool.and_eq_true, decide_eq_true_eq]
  exact ⟨⟨hhour, hminute⟩, hsecond⟩

/-- A point in time is read back from its text. -/
theorem IsPoint.read?_text (h : t.IsPoint) : read? (t.text "Z") = some t := by
  have htime := timeOfDay_lt (t := t)
  have hmonths : 1 ≤ t.date.2.1 ∧ t.date.2.1 ≤ 12 := month_dateOfDays _
  have hdays : 1 ≤ t.date.2.2 ∧ t.date.2.2 ≤ 31 := day_dateOfDays _
  have hmonth : t.date.2.1.toNat < 100 := by omega
  have hday : t.date.2.2.toNat < 100 := by omega
  have hhour : t.timeOfDay / 3600 < 24 := by omega
  have hminute : t.timeOfDay / 60 % 60 < 60 := by omega
  have hsecond : t.second < 100 := Nat.lt_of_le_of_lt h.second_le (by decide)
  have hreal : isReal t.date.1 t.date.2.1.toNat t.date.2.2.toNat (t.timeOfDay / 3600)
      (t.timeOfDay / 60 % 60) t.second = true :=
    isReal_dateOfDays h.isYear hhour hminute h.second_le
  have hdate : daysOfDate t.date.1 t.date.2.1 t.date.2.2 = t.seconds / 86400 :=
    daysOfDate_dateOfDays _
  -- The parts are read one after the other, each up to the character behind it.
  rw [read?, toList_text, year?_yearText (endsDigits_cons (c := '-') rfl)]
  simp only [Option.bind_eq_bind, Option.bind_some]
  rw [further?_padded rfl hmonth (endsDigits_cons (c := '-') rfl)]
  simp only [Option.bind_some]
  rw [further?_padded rfl hday (endsDigits_cons (c := 'T') rfl)]
  simp only [Option.bind_some, List.mem_cons, true_or, if_true]
  rw [skipBlanks_padded, number?_padded (Nat.le_of_eq (length_padded (by decide)
    (show _ < 100 by omega))) (endsDigits_cons (c := ':') rfl)]
  simp only [Option.bind_some]
  rw [further?_padded rfl (Nat.lt_trans hminute (by decide)) (endsDigits_cons (c := ':') rfl)]
  simp only [Option.bind_some]
  rw [further?_padded rfl hsecond endsDigits_fraction]
  simp only [Option.bind_some]
  rw [nanos?_fraction]
  simp only [Option.bind_some]
  rw [show offset? (skipBlanks ['Z']) = some 0 from rfl]
  simp only [Option.bind_some]
  rw [if_pos hreal, Int.toNat_of_nonneg (by omega), Int.toNat_of_nonneg (by omega), hdate,
    h.seconds_eq, if_pos h.isYear, h.nanos_eq]

/-! ### Leap seconds out of place -/

/-- Nothing is moved exactly if the leap second is in place. -/
theorem settled_eq_self_iff : t.settled = t ↔ t.IsInPlace := by
  unfold settled
  split
  · exact iff_of_true rfl ‹_›
  · refine iff_of_false (fun heq => ?_) ‹_›
    have hseconds : t.seconds + 1 = t.seconds := congrArg seconds heq
    omega

/-- What is moved stays in its minute, and there the leap second ends. -/
theorem InBounds.isPoint_settled (h : t.InBounds) : t.settled.IsPoint := by
  unfold settled
  split
  case isTrue hplace => exact ⟨h, hplace⟩
  case isFalse hplace =>
    obtain ⟨hleap, hlast⟩ : 1000000000 ≤ t.nanos ∧ t.seconds % 60 ≠ 59 := Classical.not_imp.1 hplace
    have hnanos := h.nanos_lt
    have hday : (t.seconds + 1) / 86400 = t.seconds / 86400 := by omega
    refine ⟨⟨?_, ?_⟩, fun hlate => absurd hlate ?_⟩
    · show t.nanos - 1000000000 < 2000000000
      omega
    · show Timestamp.isYear (dateOfDays ((t.seconds + 1) / 86400)).1
      rw [hday]
      exact h.isYear
    · show ¬ 1000000000 ≤ t.nanos - 1000000000
      omega

/-- **Moving a leap second does not change the text**: a second further and
without the leap second are one way to write the same number. -/
theorem InBounds.text_settled (h : t.InBounds) (zone : String) :
    t.settled.text zone = t.text zone := by
  unfold settled
  split
  case isTrue => rfl
  case isFalse hplace =>
    obtain ⟨hleap, hlast⟩ : 1000000000 ≤ t.nanos ∧ t.seconds % 60 ≠ 59 := Classical.not_imp.1 hplace
    have hnanos := h.nanos_lt
    have hday : (t.seconds + 1) / 86400 = t.seconds / 86400 := by omega
    have hhour : ((t.seconds + 1) % 86400).toNat / 3600 = (t.seconds % 86400).toNat / 3600 := by
      omega
    have hminute : ((t.seconds + 1) % 86400).toNat / 60 % 60
        = (t.seconds % 86400).toNat / 60 % 60 := by
      omega
    have hsecond : ((t.seconds + 1) % 86400).toNat % 60 + (t.nanos - 1000000000) / 1000000000
        = (t.seconds % 86400).toNat % 60 + t.nanos / 1000000000 := by
      omega
    have hfraction : fraction (t.nanos - 1000000000) = fraction t.nanos := by
      have hmod : (t.nanos - 1000000000) % 1000000000 = t.nanos % 1000000000 := by omega
      simp only [fraction, hmod]
    simp only [text, hday, hhour, hminute, hsecond, hfraction]

/-- **What is read back from a text** is the point in time with its leap second
in place. -/
theorem InBounds.read?_text (h : t.InBounds) : read? (t.text "Z") = some t.settled := by
  rw [← h.text_settled "Z"]
  exact h.isPoint_settled.read?_text

/-! ### What is read -/

/-- A fraction stays below a second. -/
theorem nanos?_lt {s rest : List Char} {n : Nat} (h : nanos? s = some (n, rest)) :
    n < 1000000000 := by
  unfold nanos? at h
  split at h
  case h_1 digits =>
    dsimp only at h
    split at h
    case isTrue => cases h
    case isFalse hdigits =>
      obtain ⟨m, hm, heq⟩ := Option.map_eq_some_iff.1 h
      obtain ⟨rfl, -⟩ := Prod.mk.inj heq
      have hall : ∀ c ∈ (digits.takeWhile Char.isDigit ++ List.replicate 9 '0').take 9,
          c.isDigit := by
        intro c hc
        rcases List.mem_append.1 (List.mem_of_mem_take hc) with hc | hc
        · exact List.all_eq_true.1 List.all_takeWhile c hc
        · rw [(List.mem_replicate.1 hc).2]
          decide
      have hne : (digits.takeWhile Char.isDigit ++ List.replicate 9 '0').take 9 ≠ [] := by
        simp
      rw [Text.natValue?_eq hne hall] at hm
      obtain rfl := Option.some.inj hm
      refine Nat.lt_of_lt_of_le (Text.ofDigitChars_lt hall 0) ?_
      rw [Nat.zero_add, Nat.one_mul]
      exact Nat.pow_le_pow_right (by decide) (List.length_take_le ..)
  case h_2 =>
    cases h
    decide

/-- Distances from universal time are in whole minutes. -/
theorem distance?_mod {s rest : List Char} {n : Nat} (h : distance? s = some (n, rest)) :
    n % 60 = 0 := by
  unfold distance? at h
  split at h
  · obtain ⟨hours, -, h⟩ := Option.bind_eq_some_iff.1 h
    split at h
    · obtain ⟨minutes, -, h⟩ := Option.bind_eq_some_iff.1 h
      split at h
      · cases h
        omega
      · cases h
    · cases h
  · cases h

theorem offset?_mod {s : List Char} {n : Int} (h : offset? s = some n) : n % 60 = 0 := by
  unfold offset? at h
  dsimp only at h
  split at h
  · split at h <;> cases h
    rfl
  · split at h <;> cases h
    rfl
  · obtain ⟨⟨m, rest⟩, hm, h⟩ := Option.bind_eq_some_iff.1 h
    have hmod := distance?_mod hm
    split at h <;> cases h
    omega
  · obtain ⟨⟨m, rest⟩, hm, h⟩ := Option.bind_eq_some_iff.1 h
    have hmod := distance?_mod hm
    split at h <;> cases h
    omega
  · obtain ⟨⟨m, rest⟩, hm, h⟩ := Option.bind_eq_some_iff.1 h
    have hmod := distance?_mod hm
    split at h <;> cases h
    omega
  · split at h
    · split at h <;> cases h
      rfl
    · cases h

/-- Whatever is read is a point in time. -/
theorem isPoint_of_read? {text : String} (h : read? text = some t) : t.IsPoint := by
  unfold read? at h
  obtain ⟨⟨year, s⟩, -, h⟩ := Option.bind_eq_some_iff.1 h
  obtain ⟨⟨month, s⟩, -, h⟩ := Option.bind_eq_some_iff.1 h
  obtain ⟨⟨day, s⟩, -, h⟩ := Option.bind_eq_some_iff.1 h
  dsimp only at h
  split at h
  case h_2 => cases h
  case h_1 =>
  split at h
  case isFalse => cases h
  case isTrue =>
  rw [Option.bind_eq_bind, Option.bind_some] at h
  obtain ⟨⟨hour, s⟩, -, h⟩ := Option.bind_eq_some_iff.1 h
  obtain ⟨⟨minute, s⟩, -, h⟩ := Option.bind_eq_some_iff.1 h
  obtain ⟨⟨second, s⟩, -, h⟩ := Option.bind_eq_some_iff.1 h
  obtain ⟨⟨nanos, s⟩, hnanos, h⟩ := Option.bind_eq_some_iff.1 h
  obtain ⟨offset, hoffset, h⟩ := Option.bind_eq_some_iff.1 h
  dsimp only at h
  split at h
  case isFalse => cases h
  case isTrue hreal =>
  split at h
  case isFalse => cases h
  case isTrue hyear =>
  cases h
  have hlt := nanos?_lt hnanos
  have hmod := offset?_mod hoffset
  have hsecond : second ≤ 60 := by
    simp only [isReal, Bool.and_eq_true, decide_eq_true_eq] at hreal
    exact hreal.2
  refine ⟨⟨?_, hyear⟩, ?_⟩
  · show nanos + second / 60 * 1000000000 < 2000000000
    omega
  · show 1000000000 ≤ nanos + second / 60 * 1000000000 → (_ - offset) % 60 = 59
    intro hleap
    obtain rfl : second = 60 := by omega
    rw [Int.ofNat_eq_natCast]
    omega

/-- **The points in time are what texts denote.** -/
theorem isPoint_iff : t.IsPoint ↔ ∃ text, read? text = some t :=
  ⟨fun h => ⟨_, h.read?_text⟩, fun ⟨_, h⟩ => isPoint_of_read? h⟩

end StackGraph.Timestamp
