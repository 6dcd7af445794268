import ContentIndex.Proofs.Calendar.ReadBack
import ContentIndex.Proofs.Calendar.Shifting
import ContentIndex.Query.Date

/-
  Bounds that are given as a year, a month or a day stand for that whole period. The bounds of the
  clause that an entry becomes are texts; read back they are moments, and each side of a range
  admits a moment or not (`Bounds.AdmitsFrom`, `Bounds.AdmitsTo`). With a period on both sides and
  both of them included, the moments that are admitted are those of the period. An excluded bound
  behind which the range begins leaves out the whole period, so that only what comes later than all
  of it is admitted, and one before which the range ends admits only what comes earlier than all of
  it (`period_bounds`).

  A period is the stretch between two days (`Period.contains_iff`). So all that the range has to get
  right is which of the two days it takes, and whether their first or last second.
-/

namespace ContentIndex.Query

open Json (Value)
open Calendar (Date Moment)

/-! ## Periods -/

/-- A year, a month of a year or a day of a month. The last year of the calendar is left out: its
last month has no month behind it. -/
structure Period where
  year : Int32
  month : Option UInt32
  day : Option UInt32
  year_range : Calendar.firstYear ≤ year.toInt ∧ year.toInt < Calendar.lastYear
  month_range : ∀ m ∈ month, 1 ≤ m.toNat ∧ m.toNat ≤ 12
  day_range : ∀ d ∈ day, ∃ m ∈ month,
    1 ≤ d.toNat ∧ d.toNat ≤ Calendar.daysInMonth year.toInt m.toNat

namespace Period

/-- The bound that is given by the parts of a period. -/
def bound (p : Period) : DateBound := .parts p.year p.month p.day

/-- A moment is in a period if it has the year, and the month and the day if they are given. -/
def Contains (p : Period) (t : Moment) : Prop :=
  t.date.year = p.year.toInt ∧ (∀ m ∈ p.month, t.date.month = m.toNat) ∧
    ∀ d ∈ p.day, t.date.day = d.toNat

theorem month_getD_range (p : Period) {other : Nat} (h : 1 ≤ other ∧ other ≤ 12) :
    1 ≤ (p.month.map (·.toNat)).getD other ∧ (p.month.map (·.toNat)).getD other ≤ 12 := by
  cases hm : p.month with
  | none => exact h
  | some m => exact p.month_range m hm

/-- The first or the last day of a period. -/
def edge (p : Period) (last : Bool) : Date where
  year := p.year.toInt
  month := (p.month.map (·.toNat)).getD (if last then 12 else 1)
  day := (p.day.map (·.toNat)).getD (if last then Calendar.daysInMonth p.year.toInt
    ((p.month.map (·.toNat)).getD (if last then 12 else 1)) else 1)
  year_range := ⟨p.year_range.1, Int.le_of_lt p.year_range.2⟩
  month_range := p.month_getD_range (by cases last <;> decide)
  day_range := by
    cases hd : p.day with
    | none =>
      have hpos := Calendar.daysInMonth_pos p.year.toInt
        (p.month_getD_range (show 1 ≤ (if last then 12 else 1) ∧ _ ≤ 12 by cases last <;> decide))
      cases last with
      | false => exact ⟨Nat.le_refl _, hpos⟩
      | true => exact ⟨hpos, Nat.le_refl _⟩
    | some d =>
      obtain ⟨m, hm, range⟩ := p.day_range d hd
      rw [Option.mem_def.mp hm]
      exact range

/-- A period is the stretch from its first to its last day. -/
theorem contains_iff (p : Period) (t : Moment) :
    p.Contains t ↔ p.edge false ≤ t.date ∧ t.date ≤ p.edge true := by
  have hmonth := t.date.month_range
  have hday := t.date.day_range
  rw [← not_lt, ← not_lt, Date.lt_iff, Date.lt_iff]
  cases hm : p.month with
  | none =>
    have hd : p.day = none := by
      rw [Option.eq_none_iff_forall_not_mem]
      intro d hd
      obtain ⟨m, hmem, -⟩ := p.day_range d hd
      rw [hm] at hmem
      cases hmem
    -- A day of December is the 31st at the latest.
    have hlast : t.date.month = 12 → t.date.day ≤ 31 := fun h => by
      have := hday.2
      rwa [h] at this
    simp only [Contains, edge, Bool.false_eq_true, if_false, if_true, hm, hd, Option.map_none,
      Option.getD_none, Calendar.daysInMonth, Option.mem_def, reduceCtorEq, false_imp_iff,
      implies_true, and_true]
    omega
  | some m =>
    have hlast : t.date.year = p.year.toInt → t.date.month = m.toNat →
        t.date.day ≤ Calendar.daysInMonth p.year.toInt m.toNat := fun hy hmonth => by
      rw [← hy, ← hmonth]
      exact hday.2
    cases hd : p.day with
    | none =>
      simp only [Contains, edge, Bool.false_eq_true, if_false, if_true, hm, hd, Option.map_none,
        Option.getD_none, Option.map_some, Option.getD_some, Option.mem_def, reduceCtorEq,
        false_imp_iff, implies_true, and_true, Option.some.injEq, forall_eq']
      omega
    | some d =>
      simp only [Contains, edge, Bool.false_eq_true, if_false, if_true, hm, hd, Option.map_some,
        Option.getD_some, Option.mem_def, Option.some.injEq, forall_eq']
      omega

/-- The first or the last second of a period. -/
def limit (p : Period) (last : Bool) : Moment :=
  if last then .lastSecondOfDay (p.edge last) else .startOfDay (p.edge last)

theorem contains_limit (p : Period) (last : Bool) : p.Contains (p.limit last) := by
  have hdate : (p.limit last).date = p.edge last := by cases last <;> rfl
  unfold Contains
  rw [hdate]
  refine ⟨rfl, fun m hm => ?_, fun d hd => ?_⟩
  · simp [edge, Option.mem_def.mp hm]
  · simp [edge, Option.mem_def.mp hd]

theorem limit_false_le_iff (p : Period) {t : Moment} :
    p.limit false ≤ t ↔ p.edge false ≤ t.date := by
  rw [← not_lt, ← not_lt, Moment.lt_iff]
  simp [limit, Moment.startOfDay]

/-- The last second of a day goes on behind its beginning, but a whole second does not. -/
theorem le_limit_true_iff (p : Period) {t : Moment} (whole : t.nano = 0) :
    t ≤ p.limit true ↔ t.date ≤ p.edge true := by
  have hs := t.second_lt
  rw [← not_lt, ← not_lt, Moment.lt_iff]
  simp [limit, Moment.lastSecondOfDay, whole]
  omega

/-- A bound that is given by a period is its first or its last second. -/
theorem moment?_bound (p : Period) (now : Moment) (last : Bool) :
    p.bound.moment? now last = some (p.limit last) := by
  have hmonth := (p.edge last).month_range
  let start : Date := ⟨p.year.toInt, (p.edge last).month, 1, (p.edge last).year_range, hmonth,
    Nat.le_refl _, Calendar.daysInMonth_pos _ hmonth⟩
  have hstart : Date.ofParts? p.year.toInt (p.edge last).month 1 = some start :=
    Date.ofParts?_self start
  -- The last day of a month is found from the month behind it.
  obtain ⟨next, hnext⟩ : ∃ next, start.addMonths? 1 = some next := by
    rw [Date.exists_addMonths?_iff]
    have hlow := p.year_range.1
    have hhigh := p.year_range.2
    simp only [Date.monthIndex, Date.first, Date.last, start]
    omega
  have hedge := Date.ofParts?_self (p.edge last)
  unfold bound DateBound.moment? periodBound?
  change (Date.ofParts? p.year.toInt (p.edge last).month 1).bind _ = _
  rw [hstart, Option.bind_some, hnext, Option.map_some]
  cases hd : p.day with
  | none =>
    cases last <;>
    · simp only [edge, hd, Option.map_none, Option.getD_none] at hedge
      simp_all [limit, edge]
  | some d =>
    cases last <;>
    · simp only [edge, hd, Option.map_some, Option.getD_some] at hedge
      simp_all [limit, edge]

/-- A whole second is in a period if it comes neither before its first nor after its last one. -/
theorem contains_iff_limits (p : Period) {t : Moment} (whole : t.nano = 0) :
    p.Contains t ↔ p.limit false ≤ t ∧ t ≤ p.limit true := by
  rw [contains_iff, p.limit_false_le_iff, p.le_limit_true_iff whole]

/-- A whole second after the last one of a period comes after all of the period. -/
theorem limit_true_lt_iff (p : Period) {t : Moment} (whole : t.nano = 0) :
    p.limit true < t ↔ ∀ m, p.Contains m → m < t := by
  refine ⟨fun h m hm => ?_, fun h => h _ (p.contains_limit true)⟩
  have hdate : p.edge true < t.date := not_le.mp (mt (p.le_limit_true_iff whole).mpr (not_le.mpr h))
  exact Moment.lt_iff.mpr (.inl (lt_of_le_of_lt ((p.contains_iff m).mp hm).2 hdate))

theorem lt_limit_false_iff (p : Period) {t : Moment} :
    t < p.limit false ↔ ∀ m, p.Contains m → t < m := by
  refine ⟨fun h m hm => ?_, fun h => h _ (p.contains_limit false)⟩
  have hdate : t.date < p.edge false := not_le.mp (mt p.limit_false_le_iff.mpr (not_le.mpr h))
  exact Moment.lt_iff.mpr (.inl (lt_of_lt_of_le hdate ((p.contains_iff m).mp hm).1))

end Period

/-! ## Ranges -/

/-- The moment that a bound of a clause writes. -/
def writtenMoment? (v : Value) : Option Moment :=
  v.string?.bind Moment.read?

namespace Bounds

/-- A moment comes after the bounds with which a range begins. -/
def AdmitsFrom (b : Bounds) (t : Moment) : Prop :=
  (∀ v ∈ b.above, ∃ m, writtenMoment? v = some m ∧ m < t) ∧
    ∀ v ∈ b.atLeast, ∃ m, writtenMoment? v = some m ∧ m ≤ t

/-- A moment comes before the bounds with which a range ends. -/
def AdmitsTo (b : Bounds) (t : Moment) : Prop :=
  (∀ v ∈ b.below, ∃ m, writtenMoment? v = some m ∧ t < m) ∧
    ∀ v ∈ b.atMost, ∃ m, writtenMoment? v = some m ∧ t ≤ m

end Bounds

namespace Period

/-- The text of a bound gives the limit back. -/
theorem value?_bound (p : Period) (now : Moment) (last : Bool) :
    ∃ v, p.bound.value? now last = some v ∧ writtenMoment? v = some (p.limit last) := by
  have whole : (p.limit last).wholeSecond = p.limit last := by cases last <;> rfl
  refine ⟨.string (p.limit last).text, ?_, ?_⟩
  · rw [DateBound.value?, p.moment?_bound, Option.map_some]
  · rw [writtenMoment?, Value.string?, Option.bind_some, Moment.read?_text, whole]

variable (p : Period) (e : DatePredicate) (now t : Moment) (column : String)

theorem range?_after :
    ∃ b, DatePredicate.range? { e with after := some p.bound } now column = some (.range column b) ∧
      (b.AdmitsFrom t ↔ if e.inclusive then p.limit false ≤ t else p.limit true < t) := by
  obtain ⟨v, hv, hwritten⟩ := p.value?_bound now (!e.inclusive)
  unfold DatePredicate.range?
  simp only [Option.bind_some, hv, Option.isNone_some, Bool.false_and, Bool.false_eq_true, if_false]
  cases h : e.inclusive with
  | false | true =>
    rw [h] at hwritten
    refine ⟨_, rfl, ?_⟩
    simp [Bounds.AdmitsFrom, hwritten]

theorem range?_before :
    ∃ b, DatePredicate.range? { e with before := some p.bound } now column =
        some (.range column b) ∧
      (b.AdmitsTo t ↔ if e.inclusive then t ≤ p.limit true else t < p.limit false) := by
  obtain ⟨v, hv, hwritten⟩ := p.value?_bound now e.inclusive
  unfold DatePredicate.range?
  simp only [Option.bind_some, hv, Option.isNone_some, Bool.and_false, Bool.false_eq_true, if_false]
  cases h : e.inclusive with
  | false | true =>
    rw [h] at hwritten
    refine ⟨_, rfl, ?_⟩
    simp [Bounds.AdmitsTo, hwritten]

end Period

/-- Whole seconds, and a period as a bound of an entry, or of two that are read together. Between
included bounds are the moments of the period. Behind an excluded bound are those that come after
all of its moments, and in front of one those that come before all of them. -/
theorem period_bounds (p : Period) (e e' : DatePredicate) (now t : Moment) (column : String)
    (whole : t.nano = 0) :
    (∃ b b', DatePredicate.range? { e with after := some p.bound, inclusive := true } now column =
          some (.range column b) ∧
        DatePredicate.range? { e' with before := some p.bound, inclusive := true } now column =
          some (.range column b') ∧
        (b.AdmitsFrom t ∧ b'.AdmitsTo t ↔ p.Contains t)) ∧
      (∃ b, DatePredicate.range? { e with after := some p.bound, inclusive := false } now column =
          some (.range column b) ∧
        (b.AdmitsFrom t ↔ ∀ m, p.Contains m → m < t)) ∧
      ∃ b, DatePredicate.range? { e with before := some p.bound, inclusive := false } now column =
          some (.range column b) ∧
        (b.AdmitsTo t ↔ ∀ m, p.Contains m → t < m) := by
  refine ⟨?_, ?_, ?_⟩
  · obtain ⟨b, hb, hfrom⟩ := p.range?_after { e with inclusive := true } now t column
    obtain ⟨b', hb', hto⟩ := p.range?_before { e' with inclusive := true } now t column
    refine ⟨b, b', hb, hb', ?_⟩
    rw [hfrom, hto, if_pos rfl, if_pos rfl, p.contains_iff_limits whole]
  · obtain ⟨b, hb, hfrom⟩ := p.range?_after { e with inclusive := false } now t column
    refine ⟨b, hb, ?_⟩
    rw [hfrom, if_neg Bool.false_ne_true, p.limit_true_lt_iff whole]
  · obtain ⟨b, hb, hto⟩ := p.range?_before { e with inclusive := false } now t column
    refine ⟨b, hb, ?_⟩
    rw [hto, if_neg Bool.false_ne_true, p.lt_limit_false_iff]

/-- The last second of a leap day is between the bounds of its month, and not behind them. -/
theorem period_bounds_leap_day :
    let february : Period :=
      ⟨2024, some 2, none, by decide, fun m hm => by cases hm; decide, fun d hd => by cases hd⟩
    let t : Moment := .lastSecondOfDay ⟨2024, 2, 29, by decide, by decide, by decide⟩
    t.nano = 0 ∧ february.Contains t ∧
      (∃ b b',
        DatePredicate.range? { after := some february.bound, inclusive := true } .epoch
          "post_date" = some (.range "post_date" b) ∧
        DatePredicate.range? { before := some february.bound, inclusive := true } .epoch
          "post_date" = some (.range "post_date" b') ∧
        b.AdmitsFrom t ∧ b'.AdmitsTo t) ∧
      ∃ b, DatePredicate.range? { after := some february.bound } .epoch "post_date" =
          some (.range "post_date" b) ∧ ¬ b.AdmitsFrom t := by
  intro february t
  have inside : february.Contains t := ⟨rfl, fun m hm => by cases hm; rfl, fun d hd => by cases hd⟩
  obtain ⟨⟨b, b', hb, hb', hboth⟩, ⟨c, hc, hafter⟩, -⟩ :=
    period_bounds february {} {} .epoch t "post_date" rfl
  refine ⟨rfl, inside, ⟨b, b', hb, hb', hboth.mpr inside⟩, c, hc, fun h => ?_⟩
  exact lt_irrefl t (hafter.mp h t inside)

end ContentIndex.Query
