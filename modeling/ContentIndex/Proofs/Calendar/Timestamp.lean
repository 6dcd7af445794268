import ContentIndex.Calendar.Timestamp
import ContentIndex.Proofs.Number.Digits
import Mathlib.Tactic.IntervalCases

/-
  Timestamps are read back: the text of any moment, whatever its year and its fraction, and of a
  leap second too, gives the moment itself. A scan that has read what a part was written as goes
  on with what stands behind it (`Scan.bind_of_eq`); the parts are numbers in a fixed width, the
  year with its sign, and the fraction. The day that a moment has in the count of days has the
  date of the moment (`Date.ofDayNumber?_dayNumber`).
-/

namespace ContentIndex

open Text (digit? takeDigits ofDigits twoDigits padded isBlank)

namespace Calendar

/-! ## Dates by their days -/

theorem daysBeforeMonth_mono (y : Int) {m m' : Nat} (h : m ≤ m') :
    daysBeforeMonth y m ≤ daysBeforeMonth y m' := by
  induction h with
  | refl => exact Nat.le_refl _
  | step _ ih => exact Nat.le_trans ih (Nat.le_add_right _ _)

/-- The month of a day is the one that has begun and not ended. -/
theorem monthOfDay_eq {y : Int} {m before : Nat} (hm : 1 ≤ m ∧ m ≤ 12)
    (begun : daysBeforeMonth y m ≤ before) (later : before < daysBeforeMonth y (m + 1)) :
    monthOfDay y before = m := by
  have not_begun (k : Nat) (hk : m + 1 ≤ k) : ¬ daysBeforeMonth y k ≤ before := by
    have := daysBeforeMonth_mono y hk
    omega
  obtain ⟨h1, h12⟩ := hm
  unfold monthOfDay
  interval_cases m <;> simp [begun, not_begun]

namespace Date

theorem ordinal_bounds (d : Date) : 1 ≤ d.ordinal ∧ d.ordinal ≤ yearLength d.year := by
  have hd := d.day_range
  have next : daysBeforeMonth d.year (d.month + 1) =
      daysBeforeMonth d.year d.month + daysInMonth d.year d.month := rfl
  have hm : d.month + 1 ≤ 13 := Nat.succ_le_succ d.month_range.2
  have within := daysBeforeMonth_mono d.year hm
  rw [daysBeforeMonth_thirteen] at within
  unfold ordinal
  omega

theorem day_lt (d : Date) : d.day < 32 := by
  have hd := d.day_range
  have hl : daysInMonth d.year d.month ≤ 31 := by
    unfold daysInMonth
    split <;> first | omega | (split <;> omega)
  omega

/-- The day with the number of a date has that date. -/
theorem ofDayNumber?_dayNumber (d : Date) : ofDayNumber? d.dayNumber = some d := by
  obtain ⟨h1, hy⟩ := d.ordinal_bounds
  have hd := d.day_range
  have year : yearOfDay d.dayNumber = d.year := by
    refine yearOfDay_eq ?_ ?_
    · unfold dayNumber
      omega
    · rw [daysBeforeYear_succ]
      unfold dayNumber
      omega
  have before : (d.dayNumber - daysBeforeYear d.year).toNat = d.ordinal - 1 := by
    unfold dayNumber
    omega
  have month : monthOfDay d.year (d.ordinal - 1) = d.month := by
    refine monthOfDay_eq d.month_range ?_ ?_
    · unfold ordinal
      omega
    · change _ < daysBeforeMonth d.year d.month + daysInMonth d.year d.month
      unfold ordinal
      omega
  have day : d.ordinal - 1 - daysBeforeMonth d.year d.month + 1 = d.day := by
    unfold ordinal
    omega
  unfold ofDayNumber?
  simp only [year, before, month, day]
  exact ofParts?_self d

end Date

/-! ## Moments by their parts -/

namespace Moment

/-- The second that is written, 60 in a leap second. -/
def writtenSecond (t : Moment) : Nat := t.secondOfMinute + if t.isLeap then 1 else 0

theorem written_range (t : Moment) : t.hour < 24 ∧ t.minute < 60 ∧ t.writtenSecond ≤ 60 := by
  have hs := t.second_lt
  refine ⟨?_, ?_, ?_⟩
  · unfold hour
    omega
  · unfold minute
    omega
  · unfold writtenSecond secondOfMinute
    split <;> omega

theorem ofParts?_written (t : Moment) :
    ofParts? t.date t.hour t.minute t.writtenSecond (t.nano % 1000000000) = some t := by
  have hs := t.second_lt
  have hn := t.nano_lt
  have hl := t.leap_at_59
  have fits : t.hour < 24 ∧ t.minute < 60 ∧ t.writtenSecond ≤ 60 ∧
      t.nano % 1000000000 < 1000000000 := by
    obtain ⟨hour, minute, second⟩ := t.written_range
    exact ⟨hour, minute, second, Nat.mod_lt _ (by decide)⟩
  rw [ofParts?, dif_pos fits]
  refine congrArg some (Moment.ext rfl ?_ ?_)
  · unfold writtenSecond secondOfMinute hour minute isLeap
    simp only [decide_eq_true_eq]
    split <;> omega
  · unfold writtenSecond secondOfMinute isLeap
    simp only [decide_eq_true_eq]
    by_cases h : 1000000000 ≤ t.nano
    · rw [if_pos h, if_pos (by have := hl h; omega)]
      omega
    · rw [if_neg h, if_neg (by omega)]
      omega

theorem ofInstant?_instant (t : Moment) : ofInstant? t.instant t.nano = some t := by
  have hs := t.second_lt
  have day : t.instant / 86400 = t.date.dayNumber := by
    unfold instant
    omega
  have second : (t.instant % 86400).toNat = t.second := by
    unfold instant
    omega
  unfold ofInstant?
  simp only [day, second, Date.ofDayNumber?_dayNumber, Option.bind_some]
  exact dif_pos ⟨t.nano_lt, t.leap_at_59⟩

end Moment

/-! ## Scans -/

namespace Scan

variable {α β : Type} {cs r : List Char}

/-- A scan goes on behind what it has read. -/
theorem bind_of_eq {s : Scan α} {f : α → Scan β} {a : α} (h : s cs = some (a, r)) :
    (s >>= f) cs = f a r := by
  change (s cs >>= fun p => f p.1 p.2) = _
  rw [h]
  rfl

theorem blanks_of_not {c : Char} (h : isBlank c = false) : blanks (c :: r) = some ((), c :: r) := by
  have kept : Text.trimStart (c :: r) = c :: r := List.dropWhile_cons_of_neg (by simp [h])
  rw [blanks, kept]

/-- A scan of what may stand between two parts: it reads nothing in front of what is no blank. -/
def Gap (gap : Scan Unit) : Prop :=
  ∀ c r, isBlank c = false → gap (c :: r) = some ((), c :: r)

theorem gap_blanks : Gap blanks := fun _ _ h => blanks_of_not h

theorem gap_pure : Gap (pure ()) := fun _ _ _ => rfl

theorem char_self (c : Char) : char c (c :: r) = some ((), r) := by
  simp [char]

/-- Leading digits end where so many of them are read, or where no digit follows. -/
theorem splitDigits_digits {ds : List Nat} {most : Nat} (h : ∀ d ∈ ds, d < 10)
    (stop : ds.length = most ∨ (ds.length < most ∧ Text.NoDigitHead r)) :
    splitDigits most (ds.map Nat.digitChar ++ r) = (ds, r) := by
  induction ds generalizing most with
  | nil =>
    rcases stop with rfl | ⟨hlt, hr⟩
    · rfl
    · obtain ⟨n, rfl⟩ := Nat.exists_eq_add_one_of_ne_zero (Nat.ne_of_gt hlt)
      cases r with
      | nil => rfl
      | cons c r => simp [splitDigits, hr c r rfl]
  | cons d ds ih =>
    obtain ⟨n, rfl⟩ := Nat.exists_eq_add_one_of_ne_zero (show most ≠ 0 by
      rw [List.length_cons] at stop
      omega)
    have hd : digit? d.digitChar = some d := Number.digit?_digitChar (h d List.mem_cons_self)
    have later : splitDigits n (ds.map Nat.digitChar ++ r) = (ds, r) :=
      ih (fun d hd => h d (List.mem_cons_of_mem _ hd)) (by simpa using stop)
    simp [splitDigits, hd, later]

/-- A number is read if there are digits enough. -/
theorem number_digits {ds : List Nat} {least most : Nat} (h : ∀ d ∈ ds, d < 10)
    (stop : ds.length = most ∨ (ds.length < most ∧ Text.NoDigitHead r)) :
    number least most (ds.map Nat.digitChar ++ r) =
      if ds.length < least then none else some (ofDigits ds, r) := by
  unfold number
  rw [splitDigits_digits h stop]

/-- Two digits are read as their number. -/
theorem number_twoDigits {least n : Nat} (hl : least ≤ 2) (h : n < 100) (r : List Char) :
    number least 2 (twoDigits n ++ r) = some (n, r) := by
  obtain ⟨ds, hds, small, two, value⟩ := Text.twoDigits_eq_digits n
  rw [hds, number_digits small (.inl two), if_neg (by omega), value h]

theorem pair_twoDigits {n : Nat} (h : n < 100) (r : List Char) :
    pair (twoDigits n ++ r) = some (n, r) := by
  have first : n / 10 % 10 < 10 := Nat.mod_lt _ (by decide)
  unfold pair
  rw [show twoDigits n ++ r = (n / 10 % 10).digitChar :: ((n % 10).digitChar :: r) from rfl,
    bind_of_eq (blanks_of_not (Text.isBlank_digitChar first))]
  exact number_twoDigits (by decide) h r

theorem anyNumber_padded (width n : Nat) {r : List Char} (hr : Text.NoDigitHead r) :
    anyNumber (padded width n ++ r) = some (n, r) := by
  obtain ⟨ds, hds, small, rfl, hne, -⟩ := Text.padded_eq_digits width n
  unfold anyNumber
  rw [hds, Text.takeDigits_digits small hr]
  cases ds with
  | nil => exact absurd rfl hne
  | cons d ds => rfl

theorem year_minus (r : List Char) :
    year ('-' :: r) = (do return -(← anyNumber : Int) : Scan Int) r :=
  rfl

theorem year_plus (r : List Char) :
    year ('+' :: r) = (do return (← anyNumber : Int) : Scan Int) r :=
  rfl

theorem year_unsigned {c : Char} (hb : isBlank c = false) (hm : c ≠ '-') (hp : c ≠ '+')
    (r : List Char) : year (c :: r) = (do return (← number 1 4 : Int) : Scan Int) (c :: r) := by
  unfold year
  rw [bind_of_eq (blanks_of_not hb), bind_of_eq (s := peek) rfl]
  simp [hm, hp]

/-- Up to four digits are a year, if there are some. -/
theorem year_digits {ds : List Nat} (hne : ds ≠ []) (h : ∀ d ∈ ds, d < 10)
    (stop : ds.length = 4 ∨ (ds.length < 4 ∧ Text.NoDigitHead r)) :
    year (ds.map Nat.digitChar ++ r) = some ((ofDigits ds : Int), r) := by
  have value : number 1 4 (ds.map Nat.digitChar ++ r) = _ := number_digits h stop
  obtain ⟨d, ds, rfl⟩ := List.exists_cons_of_ne_nil hne
  have hd : d < 10 := h d List.mem_cons_self
  rw [if_neg (by simp), List.map_cons, List.cons_append] at value
  rw [List.map_cons, List.cons_append, year_unsigned (Text.isBlank_digitChar hd)
    (Text.digitChar_ne_sign hd).1 (Text.digitChar_ne_sign hd).2, bind_of_eq value]
  rfl

/-- A year is read as it was written, up to what cannot belong to it. -/
theorem year_yearChars (y : Int) {r : List Char} (hr : Text.NoDigitHead r) :
    year (yearChars y ++ r) = some (y, r) := by
  unfold yearChars
  by_cases hy : 0 ≤ y ∧ y ≤ 9999
  · rw [if_pos hy]
    obtain ⟨ds, hds, small, hn, hne, hlen⟩ := Text.padded_eq_digits 4 y.natAbs
    rw [hds, year_digits hne small (.inl (hlen (by decide) (by omega))), hn]
    exact congrArg (fun i => some (i, r)) (show (y.natAbs : Int) = y by omega)
  · rw [if_neg hy, List.cons_append]
    have value := anyNumber_padded 4 y.natAbs hr
    by_cases neg : y < 0
    · rw [if_pos neg, year_minus, bind_of_eq value]
      exact congrArg (fun i => some (i, r)) (show -(y.natAbs : Int) = y by omega)
    · rw [if_neg neg, year_plus, bind_of_eq value]
      exact congrArg (fun i => some (i, r)) (show (y.natAbs : Int) = y by omega)

/-- A date is read as it was written, whatever else may stand between its parts. -/
theorem date_chars {gap : Scan Unit} (hg : Gap gap) (d : Date) (r : List Char) :
    date gap (d.chars ++ r) = some (d, r) := by
  have hm := d.month_range
  have hd := d.day_lt
  have shape : d.chars ++ r = yearChars d.year ++
      '-' :: (twoDigits d.month ++ '-' :: (twoDigits d.day ++ r)) := by
    simp [Date.chars]
  have hyphen : isBlank '-' = false := by decide
  unfold date
  rw [shape, bind_of_eq (year_yearChars d.year (Text.noDigitHead_cons (by decide))),
    bind_of_eq (hg '-' _ hyphen), bind_of_eq (char_self '-'),
    bind_of_eq (pair_twoDigits (by omega) _), bind_of_eq (hg '-' _ hyphen),
    bind_of_eq (char_self '-'), bind_of_eq (pair_twoDigits (by omega) _), ofOption,
    Date.ofParts?_self]
  rfl

theorem dateEnd_T (r : List Char) : dateEnd ('T' :: r) = some ((), r) :=
  rfl

/-- Hour, minute and second between colons. -/
def clockChars (h m s : Nat) : List Char :=
  twoDigits h ++ ':' :: (twoDigits m ++ ':' :: twoDigits s)

/-- A time is read as it was written. -/
theorem time_clockChars {gap : Scan Unit} (hg : Gap gap) {h m s : Nat} (hour : h < 100)
    (minute : m < 100) (second : s < 100) (r : List Char) :
    time gap (clockChars h m s ++ r) = some ((h, m, s), r) := by
  have shape : clockChars h m s ++ r =
      twoDigits h ++ ':' :: (twoDigits m ++ ':' :: (twoDigits s ++ r)) := by
    simp [clockChars]
  have colon : isBlank ':' = false := by decide
  unfold time
  rw [shape, bind_of_eq (pair_twoDigits hour _), bind_of_eq (hg ':' _ colon),
    bind_of_eq (char_self ':'), bind_of_eq (pair_twoDigits minute _),
    bind_of_eq (hg ':' _ colon), bind_of_eq (char_self ':'),
    bind_of_eq (pair_twoDigits second _)]
  rfl

theorem timeChars_eq_clockChars (t : Moment) :
    t.timeChars = clockChars t.hour t.minute t.writtenSecond := by
  simp [Moment.timeChars, Moment.writtenSecond, clockChars]

theorem time_timeChars {gap : Scan Unit} (hg : Gap gap) (t : Moment) (r : List Char) :
    time gap (t.timeChars ++ r) = some ((t.hour, t.minute, t.writtenSecond), r) := by
  obtain ⟨hour, minute, second⟩ := t.written_range
  rw [timeChars_eq_clockChars, time_clockChars hg (by omega) (by omega) (by omega)]

theorem fraction_point (r : List Char) :
    fraction ('.' :: r) =
      match takeDigits r with
      | ([], _) => none
      | (ds, r) => some (ofDigits (ds.take 9) * 10 ^ (9 - (ds.take 9).length), r) :=
  rfl

/-- A point and some digits are the fraction that they write. -/
theorem fraction_padded {width n : Nat} (hw : 0 < width ∧ width ≤ 9) (hn : n < 10 ^ width)
    {r : List Char} (hr : Text.NoDigitHead r) :
    fraction ('.' :: padded width n ++ r) = some (n * 10 ^ (9 - width), r) := by
  obtain ⟨ds, hds, small, rfl, hne, hlen⟩ := Text.padded_eq_digits width n
  have len : ds.length = width := hlen hw.1 hn
  have kept : ds.take 9 = ds := List.take_of_length_le (by omega)
  rw [hds, List.cons_append, fraction_point, Text.takeDigits_digits small hr]
  cases ds with
  | nil => exact absurd rfl hne
  | cons d ds => simp [kept, len]

theorem fraction_fractionChars (t : Moment) (r : List Char) :
    fraction (t.fractionChars ++ 'Z' :: r) = some (t.nano % 1000000000, 'Z' :: r) := by
  have small : t.nano % 1000000000 < 1000000000 := Nat.mod_lt _ (by decide)
  have stop : Text.NoDigitHead ('Z' :: r) := Text.noDigitHead_cons (by decide)
  unfold Moment.fractionChars
  generalize t.nano % 1000000000 = n at small ⊢
  by_cases h0 : n = 0
  · rw [h0]
    rfl
  by_cases h6 : n % 1000000 = 0
  · simp only [if_neg h0, if_pos h6]
    rw [fraction_padded ⟨by decide, by decide⟩ (by omega) stop]
    exact congrArg (fun m => some (m, 'Z' :: r)) (by omega)
  by_cases h3 : n % 1000 = 0
  · simp only [if_neg h0, if_neg h6, if_pos h3]
    rw [fraction_padded ⟨by decide, by decide⟩ (by omega) stop]
    exact congrArg (fun m => some (m, 'Z' :: r)) (by omega)
  · simp only [if_neg h0, if_neg h6, if_neg h3]
    rw [fraction_padded ⟨by decide, by decide⟩ (by omega) stop]
    exact congrArg (fun m => some (m, 'Z' :: r)) (by omega)

theorem fromZone_zero (t : Moment) (r : List Char) : fromZone t 0 r = some (t, r) := by
  rw [fromZone, if_pos (by decide), Int.sub_zero, Moment.ofInstant?_instant]
  rfl

end Scan

/-! ## Timestamps -/

namespace Moment

open Scan

/-- The timestamp of a moment is read as this moment. -/
@[simp] theorem readTimestamp?_timestampText (t : Moment) :
    readTimestamp? t.timestampText = some t := by
  have shape : t.timestampText.toList =
      t.date.chars ++ ('T' :: (t.timeChars ++ (t.fractionChars ++ 'Z' :: []))) := by
    simp [timestampText]
  have read : Scan.timestamp t.timestampText.toList = some (t, []) := by
    unfold Scan.timestamp
    rw [shape, bind_of_eq (date_chars gap_blanks t.date _), bind_of_eq (dateEnd_T _),
      bind_of_eq (time_timeChars gap_blanks t _)]
    simp only
    rw [bind_of_eq (fraction_fractionChars t []), bind_of_eq (blanks_of_not (by decide)),
      bind_of_eq (s := namedZone) rfl, bind_of_eq (s := blanks) rfl, ofParts?_written,
      bind_of_eq (s := ofOption _) rfl]
    exact fromZone_zero t []
  rw [readTimestamp?, whole, read]

end Moment
end Calendar
end ContentIndex
