import ContentIndex.Engine.Mapping
import ContentIndex.Proofs.Calendar.Counting
import ContentIndex.Proofs.Document.Projection
import Mathlib.Data.List.Forall2

/-
  The dates and times of custom values against the formats that the mapping of an index declares for
  them. The engine refuses a document with a text that does not have the format of its field.

  Moments have a wider range than the formats. A year outside 0 to 9999 is written with its sign,
  and a leap second is written as second 60. These are the only readings that do not fit, and a
  moment is always written as its date and its time with a space between (`declared_iff`). Among
  counts of seconds it is those from the year 10000 on (`declared_seconds_iff`).
-/

namespace ContentIndex

open Calendar (Date Moment timeOfDay?)
open Calendar.Scan (clockChars)
open Text (trim twoDigits isDigit)

/-! ## Formats -/

namespace Engine

/-- What a character of a format stands for: a letter for a digit, any other one for itself. -/
def Stands (f c : Char) : Prop := if f.isAlpha then isDigit c = true else c = f

instance (f c : Char) : Decidable (Stands f c) :=
  inferInstanceAs (Decidable (if f.isAlpha then isDigit c = true else c = f))

/-- A text has a format if its characters are what those of the format stand for. -/
def HasFormat (format text : String) : Prop := List.Forall₂ Stands format.toList text.toList

instance (format text : String) : Decidable (HasFormat format text) :=
  inferInstanceAs (Decidable (List.Forall₂ Stands format.toList text.toList))

theorem HasFormat.append {f g s t : String} (hs : HasFormat f s) (ht : HasFormat g t) :
    HasFormat (f ++ g) (s ++ t) := by
  unfold HasFormat at *
  rw [String.toList_append, String.toList_append]
  exact List.rel_append hs ht

theorem stands_digits {fs : List Char} {ds : List Nat} (letters : fs.all Char.isAlpha = true)
    (small : ∀ d ∈ ds, d < 10) (len : fs.length = ds.length) :
    List.Forall₂ Stands fs (ds.map Nat.digitChar) := by
  rw [List.forall₂_map_right_iff, List.forall₂_iff_zip]
  refine ⟨len, fun {f d} h => ?_⟩
  have hd := small d (List.of_mem_zip h).2
  rw [Stands, if_pos (List.all_eq_true.mp letters f (List.of_mem_zip h).1), isDigit,
    Number.digit?_digitChar hd]
  rfl

theorem stands_twoDigits {f g : Char} (hf : f.isAlpha = true) (hg : g.isAlpha = true) (n : Nat) :
    List.Forall₂ Stands [f, g] (twoDigits n) := by
  obtain ⟨ds, hds, small, two, -⟩ := Text.twoDigits_eq_digits n
  rw [hds]
  exact stands_digits (by simp [hf, hg]) small two.symm

/-- A date has the format of dates if its year has four digits and no sign. -/
theorem hasFormat_date_iff (d : Date) :
    HasFormat dateFormat (String.ofList d.chars) ↔ 0 ≤ d.year ∧ d.year ≤ 9999 := by
  have hyphen : Stands '-' '-' := by decide
  unfold HasFormat
  rw [String.toList_ofList, Date.chars, Calendar.yearChars]
  constructor
  · intro h
    by_contra hyear
    rw [if_neg hyear] at h
    obtain ⟨first, -⟩ := List.forall₂_cons.mp h
    split at first <;> exact absurd first (by decide)
  · intro hyear
    obtain ⟨ds, hds, small, -, -, len⟩ := Text.padded_eq_digits 4 d.year.natAbs
    rw [if_pos hyear, hds]
    have year : List.Forall₂ Stands ['y', 'y', 'y', 'y'] (ds.map Nat.digitChar) :=
      stands_digits (by decide) small (len (by decide) (by omega)).symm
    have month := stands_twoDigits (f := 'M') (g := 'M') rfl rfl d.month
    have day := stands_twoDigits (f := 'd') (g := 'd') rfl rfl d.day
    exact List.rel_append (List.rel_append year (.cons hyphen month)) (.cons hyphen day)

theorem hasFormat_clock (h m s : Nat) :
    HasFormat timeFormat (String.ofList (clockChars h m s)) := by
  have colon : Stands ':' ':' := by decide
  have hour := stands_twoDigits (f := 'H') (g := 'H') rfl rfl h
  have minute := stands_twoDigits (f := 'm') (g := 'm') rfl rfl m
  have second := stands_twoDigits (f := 's') (g := 's') rfl rfl s
  unfold HasFormat
  rw [String.toList_ofList]
  exact List.rel_append hour (.cons colon (List.rel_append minute (.cons colon second)))

end Engine

open Engine (HasFormat)

namespace Calendar.Moment

theorem writtenSecond_lt_iff (t : Moment) : t.writtenSecond < 60 ↔ t.isLeap = false := by
  have leap : t.isLeap = true → t.secondOfMinute = 59 := fun h =>
    t.leap_at_59 (of_decide_eq_true h)
  have second : t.secondOfMinute < 60 := Nat.mod_lt _ (by decide)
  unfold writtenSecond
  cases h : t.isLeap with
  | true => simp [leap h]
  | false => simpa using second

/-- The years of four digits, as a range of instants. -/
theorem year_range_iff (t : Moment) : (0 ≤ t.date.year ∧ t.date.year ≤ 9999) ↔
    -62167219200 ≤ t.instant ∧ t.instant < 253402300800 := by
  have first := Date.daysBeforeYear_le_iff t.date 0
  have last := Date.daysBeforeYear_le_iff t.date 10000
  rw [show daysBeforeYear 0 = -719528 from rfl] at first
  rw [show daysBeforeYear 10000 = 2932897 from rfl] at last
  have hs := t.second_lt
  unfold instant
  omega

end Calendar.Moment

/-! ## Custom values -/

namespace MetaValue

/-- A text of hours, minutes and seconds on a clock. -/
def InDay (text : String) : Prop :=
  ∃ h m s, h < 24 ∧ m < 60 ∧ s < 60 ∧ text = timeText h m s

/-- The texts of dates and times are what the mapping declares for their fields. -/
structure Declared (m : MetaValue) : Prop where
  date : ∀ d ∈ m.date, HasFormat Engine.dateFormat d
  time : ∀ t ∈ m.time, HasFormat Engine.timeFormat t ∧ InDay t
  datetime : ∀ s ∈ m.datetime, HasFormat Engine.dateTimeFormat s ∧
    ∃ d ∈ m.date, ∃ t ∈ m.time, s = d ++ " " ++ t

/-- If a text writes a moment, the year of the moment has four digits. -/
def FourDigitYear (s : String) : Prop :=
  ∀ t ∈ Moment.read? s, 0 ≤ t.date.year ∧ t.date.year ≤ 9999

/-- Neither the moment of a text nor, if it has none, its time of day is in a leap second. -/
def NoLeapSecond (s : String) : Prop :=
  (∀ t ∈ Moment.read? s, t.isLeap = false) ∧
    (Moment.read? s = none → ∀ p ∈ timeOfDay? s, p.2.2 < 60)

/-- Of the times up to second 60, the ones before it are those on a clock. -/
theorem inDay_timeText_iff {h m s : Nat} (hh : h < 24) (hm : m < 60) (hs : s ≤ 60) :
    InDay (timeText h m s) ↔ s < 60 := by
  constructor
  · rintro ⟨h', m', s', hh', hm', hs', same⟩
    have read := Calendar.timeOfDay?_clockChars hh hm hs
    rw [← timeText_eq, same, timeText_eq, Calendar.timeOfDay?_clockChars hh' hm' hs'.le] at read
    cases read
    exact hs'
  · intro second
    exact ⟨h, m, s, hh, hm, second, rfl⟩

theorem hasFormat_time {raw t : String} (ht : t ∈ (project raw).time) :
    HasFormat Engine.timeFormat t := by
  obtain ⟨h, m, s, -, -, -, rfl⟩ := exists_clock ht
  rw [timeText_eq]
  exact Engine.hasFormat_clock h m s

theorem date_fits_iff (raw : String) :
    (∀ d ∈ (project raw).date, HasFormat Engine.dateFormat d) ↔ FourDigitYear (trim raw) := by
  unfold FourDigitYear
  cases read : Moment.read? (trim raw) with
  | none => simp [(time_of_not_read read).1]
  | some t =>
    have fits : HasFormat Engine.dateFormat t.dateText ↔ _ := Engine.hasFormat_date_iff t.date
    simpa [(writes_of_read read).date] using fits

theorem time_fits_iff (raw : String) :
    (∀ t ∈ (project raw).time, InDay t) ↔ NoLeapSecond (trim raw) := by
  unfold NoLeapSecond
  cases read : Moment.read? (trim raw) with
  | none =>
    rw [(time_of_not_read read).2.2]
    cases clock : timeOfDay? (trim raw) with
    | none => simp
    | some p =>
      obtain ⟨hh, hm, hs⟩ := Calendar.timeOfDay?_range clock
      simpa using inDay_timeText_iff hh hm hs
  | some t =>
    obtain ⟨hh, hm, hs⟩ := t.written_range
    have fits := inDay_timeText_iff hh hm hs
    rw [← timeText_moment, Moment.writtenSecond_lt_iff] at fits
    simpa [(writes_of_read read).time] using fits

theorem datetime_joined {raw s : String} (hs : s ∈ (project raw).datetime) :
    ∃ d ∈ (project raw).date, ∃ t ∈ (project raw).time, s = d ++ " " ++ t := by
  obtain ⟨t, written⟩ := exists_writes (.inr hs)
  rw [written.datetime] at hs
  cases hs
  exact ⟨_, written.date, _, written.time, t.text_eq⟩

theorem declared_of_fits {raw : String}
    (date : ∀ d ∈ (project raw).date, HasFormat Engine.dateFormat d)
    (time : ∀ t ∈ (project raw).time, InDay t) : Declared (project raw) where
  date
  time := fun t ht => ⟨hasFormat_time ht, time t ht⟩
  datetime := by
    intro s hs
    obtain ⟨d, hd, t, ht, rfl⟩ := datetime_joined hs
    have blank : HasFormat " " " " := by decide
    exact ⟨((date d hd).append blank).append (hasFormat_time ht), d, hd, t, ht, rfl⟩

/-- Which readings of a text fit the mapping. A date does exactly if its year has four digits, and
a time exactly if it is not in a leap second. Whatever the text is, the time has two digits for each
part, and the moment is the date and the time with a space between. -/
theorem declared_iff (raw : String) :
    ((∀ d ∈ (project raw).date, HasFormat Engine.dateFormat d) ↔ FourDigitYear (trim raw)) ∧
      ((∀ t ∈ (project raw).time, InDay t) ↔ NoLeapSecond (trim raw)) ∧
      (∀ t ∈ (project raw).time, HasFormat Engine.timeFormat t) ∧
      (∀ s ∈ (project raw).datetime,
        ∃ d ∈ (project raw).date, ∃ t ∈ (project raw).time, s = d ++ " " ++ t) ∧
      (Declared (project raw) ↔ FourDigitYear (trim raw) ∧ NoLeapSecond (trim raw)) := by
  refine ⟨date_fits_iff raw, time_fits_iff raw, fun t => hasFormat_time, fun s => datetime_joined,
    ?_⟩
  rw [← date_fits_iff, ← time_fits_iff]
  constructor
  · intro h
    exact ⟨h.date, fun t ht => (h.time t ht).2⟩
  · rintro ⟨date, time⟩
    exact declared_of_fits date time

/-- The first second of the year 10000 has a date that does not fit the mapping. -/
theorem not_declared_year_10000 :
    (project "253402300800").date = some "+10000-01-01" ∧
      ¬ Declared (project "253402300800") := by
  have date : (project "253402300800").date = some "+10000-01-01" := by decide +kernel
  refine ⟨date, fun h => ?_⟩
  exact absurd (h.date _ date) (by decide)

end MetaValue

/-! ## Counts of seconds -/

section Seconds

variable {ds : List Nat}

/-- Every instant is a signed word. -/
theorem Calendar.Moment.instant_word {t : Moment} {n : Nat} (h : t.instant = n) :
    -2 ^ 63 ≤ (n : Int) ∧ (n : Int) < 2 ^ 63 := by
  have last : lastInstant < 9223372036854775808 := by decide
  have within := t.instant_range.2
  omega

/-- Nine digits or more are read as the moment of which they are the instant. -/
theorem Calendar.Moment.read?_seconds_iff (nine : 9 ≤ ds.length) (small : ∀ d ∈ ds, d < 10)
    {t : Moment} : read? (String.ofList (ds.map Nat.digitChar)) = some t ↔
      t.instant = Text.ofDigits ds ∧ t.nano = 0 := by
  have digits : (ds.map Nat.digitChar).all isDigit = true := by
    rw [List.all_map, List.all_eq_true]
    intro d hd
    simp [isDigit, Number.digit?_digitChar (small d hd)]
  have number := Number.readNat_digits (List.ne_nil_of_length_pos (by omega)) small
  rw [read?_ofList (Text.isBlank_digits small), ofChars?, digits, List.length_map,
    decide_eq_true nine, Bool.and_self, if_pos rfl, ofSecondsText?, number, Option.bind_eq_bind,
    Option.bind_some, Option.bind_eq_bind]
  unfold Number.int64OfInt?
  split
  next => rw [Option.bind_some, ofInstant?_eq_some_iff]
  next large =>
    rw [Option.bind_none]
    exact iff_of_false (Option.some_ne_none t).symm fun h => large (instant_word h.1)

/-- Digits alone are no time of day: no colon stands behind the first two. -/
theorem Calendar.timeOfDay?_digits (three : 3 ≤ ds.length) (small : ∀ d ∈ ds, d < 10) :
    timeOfDay? (String.ofList (ds.map Nat.digitChar)) = none := by
  obtain ⟨a, b, c, r, rfl⟩ : ∃ a b c r, ds = a :: b :: c :: r := by
    match ds, three with
    | a :: b :: c :: r, _ => exact ⟨a, b, c, r, rfl⟩
  have first : a < 10 := small a (by simp)
  have two : ∀ d ∈ [a, b], d < 10 := fun d hd => small d (List.mem_append_left (c :: r) hd)
  have colon : c.digitChar ≠ ':' := by
    have all : ∀ d < 10, d.digitChar ≠ ':' := by decide
    exact all c (small c (by simp))
  have hour : Scan.pair (([a, b].map Nat.digitChar) ++ (c :: r).map Nat.digitChar) =
      some (Text.ofDigits [a, b], (c :: r).map Nat.digitChar) := by
    rw [Scan.pair, List.map_cons, List.cons_append,
      Scan.bind_of_eq (Scan.blanks_of_not (Text.isBlank_digitChar first))]
    exact Scan.number_digits two (.inl rfl)
  have time : Scan.time (pure ()) ((a :: b :: c :: r).map Nat.digitChar) = none := by
    unfold Scan.time
    rw [show (a :: b :: c :: r).map Nat.digitChar =
      ([a, b].map Nat.digitChar) ++ (c :: r).map Nat.digitChar from rfl, Scan.bind_of_eq hour,
      Scan.bind_of_eq (s := pure ()) rfl]
    exact Scan.bind_of_none (if_neg colon)
  rw [timeOfDay?, String.toList_ofList, Scan.whole_of_none time]
  rfl

/-- A text of nine digits or more counts the seconds from 1970 on. Its date fits the mapping before
the year 10000, and it has no date behind the last second of the calendar. -/
theorem MetaValue.declared_seconds_iff (nine : 9 ≤ ds.length) (small : ∀ d ∈ ds, d < 10) :
    Declared (project (String.ofList (ds.map Nat.digitChar))) ↔
      Text.ofDigits ds < 253402300800 ∨ Moment.lastInstant < Text.ofDigits ds := by
  have trimmed : trim (String.ofList (ds.map Nat.digitChar)) =
      String.ofList (ds.map Nat.digitChar) :=
    Text.trim_ofList (Text.isBlank_digits small)
  have read (t : Moment) := Moment.read?_seconds_iff nine small (t := t)
  have noLeap : NoLeapSecond (String.ofList (ds.map Nat.digitChar)) := by
    refine ⟨fun t ht => ?_, fun _ p hp => ?_⟩
    · simp [Moment.isLeap, ((read t).mp ht).2]
    · rw [Calendar.timeOfDay?_digits (by omega) small] at hp
      cases hp
  have year : FourDigitYear (String.ofList (ds.map Nat.digitChar)) ↔
      Text.ofDigits ds < 253402300800 ∨ Moment.lastInstant < Text.ofDigits ds := by
    constructor
    · intro h
      by_contra outside
      have first : Moment.firstInstant < 0 := by decide
      obtain ⟨t, ht⟩ := (Moment.exists_instant_eq_iff (i := Text.ofDigits ds) (n := 0)
        (by decide)).mpr (by omega)
      have before := (t.year_range_iff.mp (h t ((read t).mpr ht))).2
      omega
    · intro h t ht
      have instant := ((read t).mp ht).1
      have within := t.instant_range.2
      exact t.year_range_iff.mpr (by omega)
  rw [← year]
  constructor
  · intro h
    rw [← trimmed]
    exact (date_fits_iff _).mp h.date
  · intro h
    exact declared_of_fits ((date_fits_iff _).mpr (by rwa [trimmed]))
      ((time_fits_iff _).mpr (by rwa [trimmed]))

end Seconds

end ContentIndex
