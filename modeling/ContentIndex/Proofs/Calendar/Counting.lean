import ContentIndex.Proofs.Calendar.Timestamp
import Mathlib.Data.Prod.Lex

/-
  Dates and moments in their order. Dates are ordered by the count of their days, moments by the
  second they are in and then by their nanoseconds. These are the orders of the parts: of two dates
  the one of the earlier year comes first, within a year the one of the earlier month, and so on
  (`Date.lt_iff`, `Moment.lt_iff`).

  The count leaves no gap: every number from the first to the last day of the calendar is the number
  of one date (`Date.ofDayNumber?_eq_some_iff`, `Date.exists_dayNumber_eq`). So a count of seconds
  gives a moment exactly if it is not before the first second of the calendar and not after the
  last one (`Moment.ofInstant?_eq_some_iff`, `Moment.exists_instant_eq_iff`).
-/

namespace ContentIndex.Calendar

theorem daysInMonth_le (y : Int) (m : Nat) : daysInMonth y m ≤ 31 := by
  unfold daysInMonth
  split <;> first | omega | (split <;> omega)

theorem daysInMonth_pos (y : Int) {m : Nat} (h : 1 ≤ m ∧ m ≤ 12) : 1 ≤ daysInMonth y m := by
  unfold daysInMonth
  split <;> grind

/-! ## The order of dates -/

namespace Date

/-- The days of a month come before those of the next one. -/
theorem ordinal_lt_of_month_lt {d e : Date} (hy : d.year = e.year) (hm : d.month < e.month) :
    d.ordinal < e.ordinal := by
  have hd := d.day_range
  have he := e.day_range
  have next : daysBeforeMonth d.year (d.month + 1) =
      daysBeforeMonth d.year d.month + daysInMonth d.year d.month := rfl
  have later : daysBeforeMonth d.year (d.month + 1) ≤ daysBeforeMonth d.year e.month :=
    daysBeforeMonth_mono d.year hm
  unfold ordinal
  rw [← hy]
  omega

/-- A year begins before a date exactly if the date is in this year or a later one. -/
theorem daysBeforeYear_le_iff (d : Date) (y : Int) :
    daysBeforeYear y ≤ d.dayNumber ↔ y ≤ d.year := by
  have hd := d.ordinal_bounds
  unfold dayNumber
  constructor
  · intro h
    by_contra hyear
    have next := daysBeforeYear_succ d.year
    have later := daysBeforeYear_mono (Int.add_one_le_of_lt (Int.not_le.mp hyear))
    omega
  · intro h
    have earlier := daysBeforeYear_mono h
    omega

/-- The days of a year come before those of the next one. -/
theorem dayNumber_lt_of_year_lt {d e : Date} (h : d.year < e.year) :
    d.dayNumber < e.dayNumber := by
  have hd := mt (d.daysBeforeYear_le_iff e.year).mp (Int.not_le.mpr h)
  have he := (e.daysBeforeYear_le_iff e.year).mpr (Int.le_refl _)
  omega

theorem dayNumber_injective : Function.Injective dayNumber := by
  intro d e h
  have hd := ofDayNumber?_dayNumber d
  rw [h, ofDayNumber?_dayNumber] at hd
  exact (Option.some.inj hd).symm

instance : LinearOrder Date := LinearOrder.lift' dayNumber dayNumber_injective

theorem lt_iff_dayNumber {d e : Date} : d < e ↔ d.dayNumber < e.dayNumber :=
  Iff.rfl

theorem le_iff_dayNumber {d e : Date} : d ≤ e ↔ d.dayNumber ≤ e.dayNumber :=
  Iff.rfl

/-- Of two dates the one of the earlier year comes first, then the one of the earlier month, then
the one of the earlier day. -/
theorem lt_iff {d e : Date} : d < e ↔ d.year < e.year ∨
    d.year = e.year ∧ (d.month < e.month ∨ d.month = e.month ∧ d.day < e.day) := by
  have earlier (d e : Date) (h : d.year < e.year ∨ d.year = e.year ∧
      (d.month < e.month ∨ d.month = e.month ∧ d.day < e.day)) : d < e := by
    rw [lt_iff_dayNumber]
    rcases h with hy | ⟨hy, hm | ⟨hm, hd⟩⟩
    · exact dayNumber_lt_of_year_lt hy
    · have := ordinal_lt_of_month_lt hy hm
      unfold dayNumber
      rw [hy]
      omega
    · unfold dayNumber ordinal
      rw [hy, hm]
      omega
  refine ⟨fun h => ?_, earlier d e⟩
  -- Otherwise the parts are the same or in the other order.
  by_contra hnot
  rcases (by omega : (d.year = e.year ∧ d.month = e.month ∧ d.day = e.day) ∨
      (e.year < d.year ∨ e.year = d.year ∧
        (e.month < d.month ∨ e.month = d.month ∧ e.day < d.day))) with heq | hlt
  · rw [Date.ext heq.1 heq.2.1 heq.2.2] at h
    exact lt_irrefl e h
  · exact lt_asymm h (earlier e d hlt)

end Date

/-! ## The count of days -/

/-- Every day of a year is in one of its months. -/
theorem monthOfDay_spec {y : Int} {before : Nat} (h : before < yearLength y) :
    (1 ≤ monthOfDay y before ∧ monthOfDay y before ≤ 12) ∧
      daysBeforeMonth y (monthOfDay y before) ≤ before ∧
      before < daysBeforeMonth y (monthOfDay y before) + daysInMonth y (monthOfDay y before) := by
  -- The month before the first one that begins later.
  have last_begun (k : Nat) (hk : before < daysBeforeMonth y (k + 1)) :
      ∃ m, (1 ≤ m ∧ m ≤ k) ∧ daysBeforeMonth y m ≤ before ∧
        before < daysBeforeMonth y (m + 1) := by
    induction k with
    | zero => exact absurd hk (Nat.not_lt_zero _)
    | succ k ih =>
      by_cases begun : daysBeforeMonth y (k + 1) ≤ before
      · exact ⟨k + 1, ⟨by omega, Nat.le_refl _⟩, begun, hk⟩
      · obtain ⟨m, hm, hbegun⟩ := ih (Nat.not_le.mp begun)
        exact ⟨m, ⟨hm.1, Nat.le_succ_of_le hm.2⟩, hbegun⟩
  rw [← daysBeforeMonth_thirteen] at h
  obtain ⟨m, hm, begun, later⟩ := last_begun 12 h
  rw [monthOfDay_eq hm begun later]
  exact ⟨hm, begun, later⟩

namespace Date

/-- A date has its number, and no other number is read as it. -/
theorem ofDayNumber?_eq_some_iff {n : Int} {d : Date} :
    ofDayNumber? n = some d ↔ d.dayNumber = n := by
  constructor
  · intro h
    have hyear := yearOfDay_bounds n
    unfold ofDayNumber? at h
    obtain ⟨hy, hm, hk⟩ := ofParts?_eq_some h
    have next := daysBeforeYear_succ (yearOfDay n)
    have within : (n - daysBeforeYear (yearOfDay n)).toNat < yearLength (yearOfDay n) := by omega
    obtain ⟨-, begun, -⟩ := monthOfDay_spec within
    unfold dayNumber ordinal
    rw [hk, hy, hm]
    omega
  · rintro rfl
    exact ofDayNumber?_dayNumber d

/-- January is a month. -/
theorem january : 1 ≤ 1 ∧ 1 ≤ 12 := by decide

/-- The first and the last day. -/
def first : Date := ⟨firstYear, 1, 1, by decide, january, by decide⟩
def last : Date := ⟨lastYear, 12, 31, by decide, by decide, by decide⟩

theorem first_le (d : Date) : first ≤ d := by
  rw [← not_lt, lt_iff]
  have hy := d.year_range.1
  have hm := d.month_range.1
  have hd := d.day_range.1
  simp only [first]
  omega

theorem le_last (d : Date) : d ≤ last := by
  rw [← not_lt, lt_iff]
  have hy := d.year_range.2
  have hm := d.month_range.2
  have hd := d.day_range.2
  have hl := daysInMonth_le d.year d.month
  simp only [last]
  omega

/-- There is no gap among the numbers of the days. -/
theorem exists_dayNumber_eq {n : Int} (h : first.dayNumber ≤ n ∧ n ≤ last.dayNumber) :
    ∃ d : Date, d.dayNumber = n := by
  have hfirst : first.dayNumber = daysBeforeYear firstYear := by decide
  have hlast : last.dayNumber = daysBeforeYear (lastYear + 1) - 1 := by decide
  obtain ⟨begun, later⟩ := yearOfDay_bounds n
  have hyear : firstYear ≤ yearOfDay n ∧ yearOfDay n ≤ lastYear := by
    constructor
    · by_contra hlt
      have := daysBeforeYear_mono (show yearOfDay n + 1 ≤ firstYear by omega)
      omega
    · by_contra hlt
      have := daysBeforeYear_mono (show lastYear + 1 ≤ yearOfDay n by omega)
      omega
  let before := (n - daysBeforeYear (yearOfDay n)).toNat
  have within : before < yearLength (yearOfDay n) := by
    have := daysBeforeYear_succ (yearOfDay n)
    omega
  obtain ⟨hmonth, hbegun, hlater⟩ := monthOfDay_spec within
  let d : Date :=
    { year := yearOfDay n
      month := monthOfDay (yearOfDay n) before
      day := before - daysBeforeMonth (yearOfDay n) (monthOfDay (yearOfDay n) before) + 1
      year_range := hyear
      month_range := hmonth
      day_range := by omega }
  refine ⟨d, ?_⟩
  unfold dayNumber ordinal
  simp only [d]
  omega

end Date

/-! ## The order of moments -/

namespace Moment

/-- What moments are ordered by. -/
def key (t : Moment) : Int ×ₗ Nat :=
  toLex (t.instant, t.nano)

theorem ofInstant?_eq_some_iff {i : Int} {n : Nat} {t : Moment} :
    ofInstant? i n = some t ↔ t.instant = i ∧ t.nano = n := by
  constructor
  · intro h
    unfold ofInstant? at h
    obtain ⟨d, hd, ht⟩ := Option.bind_eq_some_iff.mp h
    have hday := Date.ofDayNumber?_eq_some_iff.mp hd
    split at ht
    · cases ht
      refine ⟨?_, rfl⟩
      unfold instant
      simp only [hday]
      omega
    · cases ht
  · rintro ⟨rfl, rfl⟩
    exact ofInstant?_instant t

theorem key_injective : Function.Injective key := by
  intro a b h
  have hpair : (a.instant, a.nano) = (b.instant, b.nano) := h
  obtain ⟨hinstant, hnano⟩ := Prod.mk.inj hpair
  have ha := ofInstant?_eq_some_iff.mpr ⟨hinstant, hnano⟩
  rw [ofInstant?_instant] at ha
  exact (Option.some.inj ha).symm

instance : LinearOrder Moment := LinearOrder.lift' key key_injective

theorem lt_iff_instant {a b : Moment} :
    a < b ↔ a.instant < b.instant ∨ a.instant = b.instant ∧ a.nano < b.nano :=
  Prod.Lex.toLex_lt_toLex

/-- Of two moments the one of the earlier day comes first, then the one of the earlier second, then
the one with fewer nanoseconds. -/
theorem lt_iff {a b : Moment} : a < b ↔ a.date < b.date ∨
    a.date = b.date ∧ (a.second < b.second ∨ a.second = b.second ∧ a.nano < b.nano) := by
  have ha := a.second_lt
  have hb := b.second_lt
  have same : a.date = b.date ↔ a.date.dayNumber = b.date.dayNumber :=
    Date.dayNumber_injective.eq_iff.symm
  rw [lt_iff_instant, Date.lt_iff_dayNumber, same]
  unfold instant
  omega

/-! ## The count of seconds -/

/-- The first second of the calendar, and the last one. -/
def firstInstant : Int := (startOfDay Date.first).instant
def lastInstant : Int := (lastSecondOfDay Date.last).instant

theorem instant_range (t : Moment) : firstInstant ≤ t.instant ∧ t.instant ≤ lastInstant := by
  have hfirst := Date.le_iff_dayNumber.mp t.date.first_le
  have hlast := Date.le_iff_dayNumber.mp t.date.le_last
  have hs := t.second_lt
  simp only [firstInstant, lastInstant, startOfDay, lastSecondOfDay, instant]
  omega

/-- There is no gap among the seconds of the calendar. -/
theorem exists_instant_eq_iff {i : Int} {n : Nat} (hn : n < 1000000000) :
    (∃ t : Moment, t.instant = i ∧ t.nano = n) ↔ firstInstant ≤ i ∧ i ≤ lastInstant := by
  constructor
  · rintro ⟨t, rfl, -⟩
    exact t.instant_range
  · intro h
    simp only [firstInstant, lastInstant, startOfDay, lastSecondOfDay, instant] at h
    obtain ⟨d, hd⟩ := Date.exists_dayNumber_eq (n := i / 86400) (by omega)
    refine ⟨⟨d, (i % 86400).toNat, n, by omega, by omega, by omega⟩, ?_, rfl⟩
    unfold instant
    simp only [hd]
    omega

end Moment
end ContentIndex.Calendar
