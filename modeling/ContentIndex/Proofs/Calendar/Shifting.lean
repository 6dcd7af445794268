import ContentIndex.Proofs.Calendar.Counting

/-
  Moments moved by seconds and by months. A moment outside a leap second is moved to the one that
  many seconds away, with the same nanoseconds (`Moment.addSeconds?_eq_some_iff`). Months are
  counted through the years; a date is moved to the month that many months away, and to the day of
  the same number there, or to the last one of a shorter month (`Date.addMonths?_eq_some_iff`). In
  both cases there is no result exactly if the calendar does not reach that far.
-/

namespace ContentIndex.Calendar

/-! ## Months -/

namespace Date

/-- The number of a month, counted through the years. -/
def monthIndex (d : Date) : Int := 12 * d.year + d.month

theorem addMonths?_eq_some_iff {d e : Date} {n : Int} :
    d.addMonths? n = some e ↔ e.monthIndex = d.monthIndex + n ∧
      e.day = min d.day (daysInMonth e.year e.month) := by
  have hd := d.month_range
  constructor
  · intro h
    unfold addMonths? at h
    obtain ⟨hy, hm, hk⟩ := ofParts?_eq_some h
    rw [hk, hy, hm]
    refine ⟨?_, rfl⟩
    unfold monthIndex
    omega
  · rintro ⟨hindex, hday⟩
    have he := e.month_range
    have hy : (12 * d.year + (d.month - 1 : Nat) + n) / 12 = e.year := by
      unfold monthIndex at hindex
      omega
    have hm : ((12 * d.year + (d.month - 1 : Nat) + n) % 12).toNat + 1 = e.month := by
      unfold monthIndex at hindex
      omega
    unfold addMonths?
    dsimp only
    rw [hy, hm, ← hday]
    exact ofParts?_self e

/-- The calendar has all months from its first to its last one. -/
theorem exists_addMonths?_iff {d : Date} {n : Int} : (∃ e, d.addMonths? n = some e) ↔
    first.monthIndex ≤ d.monthIndex + n ∧ d.monthIndex + n ≤ last.monthIndex := by
  constructor
  · rintro ⟨e, he⟩
    rw [← (addMonths?_eq_some_iff.mp he).1]
    have hy := e.year_range
    have hm := e.month_range
    simp only [monthIndex, first, last]
    omega
  · intro h
    simp only [monthIndex, first, last, firstYear, lastYear] at h
    let count := 12 * d.year + d.month + n - 1
    have hmonth : 1 ≤ (count % 12).toNat + 1 ∧ (count % 12).toNat + 1 ≤ 12 := by omega
    have hpos := daysInMonth_pos (count / 12) hmonth
    have hday := d.day_range
    let e : Date :=
      { year := count / 12
        month := (count % 12).toNat + 1
        day := min d.day (daysInMonth (count / 12) ((count % 12).toNat + 1))
        year_range := by
          unfold firstYear lastYear
          omega
        month_range := hmonth
        day_range := by omega }
    refine ⟨e, addMonths?_eq_some_iff.mpr ⟨?_, rfl⟩⟩
    simp only [monthIndex, e]
    omega

end Date

/-! ## Moments -/

namespace Moment

theorem addSeconds?_eq_some_iff {t u : Moment} (h : t.isLeap = false) {n : Int} :
    t.addSeconds? n = some u ↔ u.instant = t.instant + n ∧ u.nano = t.nano := by
  unfold addSeconds?
  split
  next hzero =>
    rw [hzero, Int.add_zero, ← ofInstant?_eq_some_iff, ofInstant?_instant]
  next =>
    rw [h, if_neg Bool.false_ne_true, ofInstant?_eq_some_iff]

theorem addMonths?_eq_some_iff {t u : Moment} {n : Int} :
    t.addMonths? n = some u ↔ u.date.monthIndex = t.date.monthIndex + n ∧
      u.date.day = min t.date.day (daysInMonth u.date.year u.date.month) ∧
      u.second = t.second ∧ u.nano = t.nano := by
  unfold addMonths?
  rw [Option.map_eq_some_iff]
  constructor
  · rintro ⟨d, hd, rfl⟩
    obtain ⟨hindex, hday⟩ := Date.addMonths?_eq_some_iff.mp hd
    exact ⟨hindex, hday, rfl, rfl⟩
  · rintro ⟨hindex, hday, hsecond, hnano⟩
    exact ⟨u.date, Date.addMonths?_eq_some_iff.mpr ⟨hindex, hday⟩,
      Moment.ext rfl hsecond.symm hnano.symm⟩

end Moment
end ContentIndex.Calendar
