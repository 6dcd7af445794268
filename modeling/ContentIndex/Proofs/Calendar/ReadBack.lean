import ContentIndex.Proofs.Calendar.Timestamp

/-
  The engine's texts of moments are read back (`Moment.read?_text`). Such a text says nothing of
  fractions, so what comes back is the whole second. It is neither trimmed nor taken for a count
  of seconds, whatever its year, and of the shapes of a moment it has the first.

  The text of a date alone is read as the first moment of the date (`Moment.read?_dateText`), and
  the text of a time alone as this time and as no moment (`Moment.ofChars?_clockChars`).
-/

namespace ContentIndex

open Text (isBlank trimChars trimStart trimEndWhile ofDigits twoDigits padded)

/-! ## Trimmed texts -/

namespace Text

theorem dropWhile_blanks_append {gap cs : List Char} (hgap : ∀ c ∈ gap, isBlank c = true)
    (first : ∀ c ∈ cs.head?, isBlank c = false) : (gap ++ cs).dropWhile isBlank = cs := by
  rw [List.dropWhile_append_of_pos hgap]
  cases cs with
  | nil => rfl
  | cons c r => exact List.dropWhile_cons_of_neg (by simp [first c rfl])

/-- Trimming drops the blanks around what neither starts nor ends with a blank. -/
theorem trimChars_blanks_append {front cs back : List Char}
    (hfront : ∀ c ∈ front, isBlank c = true) (hback : ∀ c ∈ back, isBlank c = true)
    (hne : cs ≠ []) (first : ∀ c ∈ cs.head?, isBlank c = false)
    (last : ∀ c ∈ cs.getLast?, isBlank c = false) : trimChars (front ++ cs ++ back) = cs := by
  have start : (cs ++ back).head? = cs.head? := by
    cases cs with
    | nil => exact absurd rfl hne
    | cons c r => rfl
  rw [trimChars, trimStart, List.append_assoc, dropWhile_blanks_append hfront (by rwa [start]),
    trimEndWhile, List.reverse_append, dropWhile_blanks_append (by simpa using hback)
      (by simpa using last), List.reverse_reverse]

/-- A text that neither starts nor ends with a blank is trimmed already. -/
theorem trimChars_eq_self {cs : List Char} (first : ∀ c ∈ cs.head?, isBlank c = false)
    (last : ∀ c ∈ cs.getLast?, isBlank c = false) : trimChars cs = cs := by
  by_cases hne : cs = []
  · rw [hne]
    rfl
  · have none : ∀ c ∈ ([] : List Char), isBlank c = true := by simp
    have trimmed := trimChars_blanks_append none none hne first last
    rwa [List.nil_append, List.append_nil] at trimmed

theorem trimChars_of_no_blank {cs : List Char} (h : ∀ c ∈ cs, isBlank c = false) :
    trimChars cs = cs :=
  trimChars_eq_self (fun c hc => h c (List.mem_of_mem_head? hc))
    fun c hc => h c (List.mem_of_mem_getLast? hc)

theorem trim_ofList {cs : List Char} (h : ∀ c ∈ cs, isBlank c = false) :
    trim (String.ofList cs) = String.ofList cs := by
  rw [trim, String.toList_ofList, trimChars_of_no_blank h]

/-- Nothing is left to trim. -/
theorem trimChars_trimChars (cs : List Char) : trimChars (trimChars cs) = trimChars cs := by
  refine trimChars_eq_self (fun c hc => ?_) fun c hc => getLast?_trimChars_not_blank cs c hc
  have front : trimChars cs <+: trimStart cs := by
    rw [trimChars, trimEndWhile, ← List.reverse_suffix, List.reverse_reverse]
    exact List.dropWhile_suffix _
  obtain ⟨r, hr⟩ := front
  refine head?_dropWhile_not isBlank cs c ?_
  change (trimStart cs).head? = some c
  rw [← hr, List.head?_append, hc, Option.some_or]

theorem isBlank_digits {ds : List Nat} (h : ∀ d ∈ ds, d < 10) :
    ∀ c ∈ ds.map Nat.digitChar, isBlank c = false := by
  intro c hc
  obtain ⟨d, hd, rfl⟩ := List.mem_map.mp hc
  exact isBlank_digitChar (h d hd)

theorem isBlank_twoDigits (n : Nat) : ∀ c ∈ twoDigits n, isBlank c = false := by
  obtain ⟨ds, hds, small, -⟩ := twoDigits_eq_digits n
  rw [hds]
  exact isBlank_digits small

theorem isBlank_padded (width n : Nat) : ∀ c ∈ padded width n, isBlank c = false := by
  obtain ⟨ds, hds, small, -⟩ := padded_eq_digits width n
  rw [hds]
  exact isBlank_digits small

end Text

namespace Calendar

/-- A written year starts with a digit or its sign. -/
theorem yearChars_head (y : Int) : ∃ c r, yearChars y = c :: r ∧ isBlank c = false := by
  unfold yearChars
  split
  · obtain ⟨ds, hds, small, -, hne, -⟩ := Text.padded_eq_digits 4 y.natAbs
    cases ds with
    | nil => exact absurd rfl hne
    | cons d ds => exact ⟨_, _, hds, Text.isBlank_digitChar (small d List.mem_cons_self)⟩
  · refine ⟨_, _, rfl, ?_⟩
    split <;> decide

namespace Moment

/-- The time of day ends with a digit. -/
theorem timeChars_eq_concat (t : Moment) :
    ∃ front d, t.timeChars = front ++ [Nat.digitChar d] ∧ d < 10 :=
  ⟨twoDigits t.hour ++ ':' :: twoDigits t.minute ++ ':' :: [(t.writtenSecond / 10 % 10).digitChar],
    t.writtenSecond % 10, by simp [timeChars, twoDigits, writtenSecond], Nat.mod_lt _ (by decide)⟩

theorem trimChars_chars (t : Moment) : trimChars t.chars = t.chars := by
  obtain ⟨c, r, year, hc⟩ := yearChars_head t.date.year
  obtain ⟨front, d, time, hd⟩ := t.timeChars_eq_concat
  refine Text.trimChars_eq_self ?_ ?_
  · simp [chars, Date.chars, year, hc]
  · rw [chars, time, ← List.cons_append, ← List.append_assoc, List.getLast?_concat]
    rintro _ ⟨⟩
    exact Text.isBlank_digitChar hd

/-- The text of a moment is not a count of seconds: its date has hyphens. -/
theorem not_all_digits (t : Moment) : t.chars.all Text.isDigit = false := by
  have hyphen : '-' ∈ t.chars := by simp [chars, Date.chars]
  rw [List.all_eq_false]
  exact ⟨'-', hyphen, by decide⟩

/-! ## Whole seconds -/

theorem writtenSecond_wholeSecond (t : Moment) : t.wholeSecond.writtenSecond = t.writtenSecond := by
  have leap : t.wholeSecond.isLeap = t.isLeap := by
    unfold wholeSecond isLeap
    by_cases h : 1000000000 ≤ t.nano <;> simp [h]
  rw [writtenSecond, leap]
  rfl

theorem nano_wholeSecond (t : Moment) : t.wholeSecond.nano % 1000000000 = 0 := by
  by_cases h : t.isLeap <;> simp [wholeSecond, h]

/-- Fractions are not written. -/
theorem timeChars_wholeSecond (t : Moment) : t.wholeSecond.timeChars = t.timeChars := by
  have second := t.writtenSecond_wholeSecond
  unfold writtenSecond at second
  rw [timeChars, second]
  rfl

theorem text_wholeSecond (t : Moment) : t.wholeSecond.text = t.text := by
  rw [text, chars, timeChars_wholeSecond]
  rfl

theorem text_eq (t : Moment) : t.text = t.dateText ++ " " ++ t.timeText := by
  rw [← String.toList_inj]
  simp [text, dateText, timeText, chars]

/-! ## Reading -/

open Scan

/-- The text of a moment is read as its whole second. -/
theorem read?_text (t : Moment) : read? t.text = some t.wholeSecond := by
  have parts : Moment.ofParts? t.date t.hour t.minute t.writtenSecond 0 = some t.wholeSecond := by
    have whole := ofParts?_written t.wholeSecond
    rwa [writtenSecond_wholeSecond, nano_wholeSecond] at whole
  have space (r : List Char) : Scan.blanks (' ' :: (t.timeChars ++ r)) =
      some ((), t.timeChars ++ r) :=
    blanks_of_not (Text.isBlank_digitChar (Nat.mod_lt _ (by decide)))
  have scan : Scan.moment Scan.blanks t.chars = some (t.wholeSecond, []) := by
    unfold Scan.moment
    rw [chars, bind_of_eq (date_chars gap_pure t.date _), ← List.append_nil t.timeChars,
      bind_of_eq (space []), bind_of_eq (time_timeChars gap_pure t [])]
    simp only [parts]
    rfl
  have listed : t.text.toList = t.chars := by simp [text]
  rw [read?, listed, trimChars_chars, ofChars?, not_all_digits, Bool.and_false,
    if_neg Bool.false_ne_true, whole, scan]
  rfl

end Moment

/-! ## Dates and times alone -/

namespace Scan

variable {α β : Type} {cs : List Char}

theorem bind_of_none {s : Scan α} {f : α → Scan β} (h : s cs = none) : (s >>= f) cs = none := by
  change (s cs >>= fun p => f p.1 p.2) = _
  rw [h]
  rfl

theorem whole_of_none {s : Scan α} (h : s cs = none) : s.whole cs = none := by
  rw [whole, h]

theorem isBlank_clockChars (h m s : Nat) : ∀ c ∈ clockChars h m s, isBlank c = false := by
  have digits := Text.isBlank_twoDigits
  have colon : isBlank ':' = false := by decide
  simp only [clockChars, List.mem_append, List.mem_cons]
  rintro c (hc | rfl | hc | rfl | hc)
  · exact digits h c hc
  · exact colon
  · exact digits m c hc
  · exact colon
  · exact digits s c hc

theorem isBlank_dateChars (d : Date) : ∀ c ∈ d.chars, isBlank c = false := by
  have year : ∀ c ∈ yearChars d.year, isBlank c = false := by
    have digits := Text.isBlank_padded 4 d.year.natAbs
    unfold yearChars
    split
    · exact digits
    · refine List.forall_mem_cons.mpr ⟨?_, digits⟩
      split <;> decide
  have digits := Text.isBlank_twoDigits
  have hyphen : isBlank '-' = false := by decide
  simp only [Date.chars, List.append_assoc, List.cons_append, List.mem_append, List.mem_cons]
  rintro c (hc | rfl | hc | rfl | hc)
  · exact year c hc
  · exact hyphen
  · exact digits d.month c hc
  · exact hyphen
  · exact digits d.day c hc

/-- A time is no date: no hyphen stands behind its hour. -/
theorem date_clockChars (h m s : Nat) : date (pure ()) (clockChars h m s) = none := by
  obtain ⟨ds, hds, small, two, -⟩ := Text.twoDigits_eq_digits h
  have colon : Text.NoDigitHead (':' :: (twoDigits m ++ ':' :: twoDigits s)) :=
    Text.noDigitHead_cons (by decide)
  have hour := year_digits (List.ne_nil_of_length_pos (by omega)) small
    (.inr ⟨by omega, colon⟩)
  unfold date
  rw [clockChars, hds, bind_of_eq hour, bind_of_eq (gap_pure _ _ (by decide))]
  exact bind_of_none rfl

/-- A time is no moment of a zone: its first number is too short for a year. -/
theorem zonedMoment_clockChars (h m s : Nat) : zonedMoment (clockChars h m s) = none := by
  obtain ⟨ds, hds, small, two, -⟩ := Text.twoDigits_eq_digits h
  have colon : Text.NoDigitHead (':' :: (twoDigits m ++ ':' :: twoDigits s)) :=
    Text.noDigitHead_cons (by decide)
  have short : number 4 4 (clockChars h m s) = none := by
    rw [clockChars, hds, number_digits small (.inr ⟨by omega, colon⟩), if_pos (by omega)]
  exact bind_of_none short

/-- A date is no moment of a zone: its year has a sign, or nothing stands behind its day. -/
theorem zonedMoment_dateChars (d : Date) : zonedMoment d.chars = none := by
  have shape : d.chars = yearChars d.year ++
      '-' :: (twoDigits d.month ++ '-' :: (twoDigits d.day ++ [])) := by
    simp [Date.chars]
  have hmonth := d.month_range
  have hday := d.day_lt
  unfold zonedMoment
  by_cases hy : 0 ≤ d.year ∧ d.year ≤ 9999
  · obtain ⟨ds, hds, small, -, -, hlen⟩ := Text.padded_eq_digits 4 d.year.natAbs
    have four : ds.length = 4 := hlen (by decide) (by omega)
    have year (r : List Char) : number 4 4 (yearChars d.year ++ r) = some (ofDigits ds, r) := by
      rw [yearChars, if_pos hy, hds, number_digits small (.inl four), if_neg (by omega)]
    rw [shape, bind_of_eq (year _), bind_of_eq (char_self '-'),
      bind_of_eq (number_twoDigits (by decide) (by omega) _), bind_of_eq (char_self '-'),
      bind_of_eq (number_twoDigits (by decide) (by omega) _)]
    exact bind_of_none rfl
  · have signed (r : List Char) : number 4 4 (yearChars d.year ++ r) = none := by
      rw [yearChars, if_neg hy]
      split <;> rfl
    rw [shape, bind_of_none (signed _)]

end Scan

namespace Moment

open Scan

/-- The text of a date alone is read as the first moment of the date. -/
theorem ofChars?_dateChars (d : Date) : ofChars? d.chars = some (startOfDay d) := by
  have digits : d.chars.all Text.isDigit = false := by
    rw [List.all_eq_false]
    exact ⟨'-', by simp [Date.chars], by decide⟩
  have date : Scan.date (pure ()) d.chars = some (d, []) := by
    have read := date_chars gap_pure d []
    rwa [List.append_nil] at read
  have spaced : Scan.moment Scan.blanks d.chars = none := by
    unfold Scan.moment
    rw [bind_of_eq date, bind_of_eq (s := Scan.blanks) rfl]
    exact bind_of_none rfl
  have lettered : Scan.moment (Scan.char 'T') d.chars = none := by
    unfold Scan.moment
    rw [bind_of_eq date]
    exact bind_of_none rfl
  rw [ofChars?, digits, Bool.and_false, if_neg Bool.false_ne_true, whole_of_none spaced,
    whole_of_none lettered, whole_of_none (zonedMoment_dateChars d), whole, date]
  rfl

theorem read?_ofList {cs : List Char} (h : ∀ c ∈ cs, isBlank c = false) :
    read? (String.ofList cs) = ofChars? cs := by
  rw [read?, String.toList_ofList, Text.trimChars_of_no_blank h]

theorem read?_dateText (t : Moment) : read? t.dateText = some (startOfDay t.date) := by
  rw [dateText, read?_ofList (isBlank_dateChars t.date), ofChars?_dateChars]

/-- The text of a time alone is no moment. -/
theorem ofChars?_clockChars (h m s : Nat) : ofChars? (clockChars h m s) = none := by
  have digits : (clockChars h m s).all Text.isDigit = false := by
    rw [List.all_eq_false]
    exact ⟨':', by simp [clockChars], by decide⟩
  have date := date_clockChars h m s
  have zoned := zonedMoment_clockChars h m s
  rw [ofChars?, digits, Bool.and_false, if_neg Bool.false_ne_true,
    whole_of_none (s := Scan.moment _) (bind_of_none date),
    whole_of_none (s := Scan.moment _) (bind_of_none date), whole_of_none zoned,
    whole_of_none date]
  rfl

end Moment

theorem timeOfDay?_range {s : String} {h m n : Nat} (e : timeOfDay? s = some (h, m, n)) :
    h < 24 ∧ m < 60 ∧ n ≤ 60 := by
  unfold timeOfDay? at e
  obtain ⟨⟨hour, minute, second⟩, -, clock⟩ := Option.bind_eq_some_iff.mp e
  dsimp only at clock
  split at clock
  next range =>
    cases clock
    exact range
  next => cases clock

open Scan in
theorem timeOfDay?_clockChars {h m s : Nat} (hh : h < 24) (hm : m < 60) (hs : s ≤ 60) :
    timeOfDay? (String.ofList (clockChars h m s)) = some (h, m, s) := by
  have read := time_clockChars gap_pure (show h < 100 by omega) (show m < 100 by omega)
    (show s < 100 by omega) []
  rw [List.append_nil] at read
  rw [timeOfDay?, String.toList_ofList, whole, read]
  exact if_pos ⟨hh, hm, hs⟩

end Calendar
end ContentIndex
