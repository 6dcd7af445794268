import ContentIndex.Document.MetaValue
import ContentIndex.Proofs.Calendar.ReadBack

/-
  The readings of a custom value fit together (`project_coherent`). An integer is always a real
  number too, and a real number decides the switch: no word for a switch writes a number
  (`switch_number`). A date comes with its time, and the two are the moment.

  The texts of these readings are custom values again, and reading them loses nothing: the text of
  a moment has the same date and time, the text of a date the same date, and the text of a time
  the same time and no date.
-/

namespace ContentIndex

open Calendar (Moment timeOfDay?)
open Calendar.Scan (clockChars)
open Number (Double)
open Text (trim lower digit? takeDigits)

namespace Text

theorem trim_trim (s : String) : trim (trim s) = trim s := by
  rw [trim, trim, String.toList_ofList, trimChars_trimChars]

/-! What has the code of `A` or a later one stands for a letter in the following lemmas. -/

variable {c : Char} {r : List Char}

theorem digit?_of_letter (h : 65 ≤ c.toNat) : digit? c = none := by
  refine if_neg fun hrange => ?_
  have hnine : c.toNat ≤ 57 := hrange.2
  omega

theorem takeDigits_of_letter (h : 65 ≤ c.toNat) : takeDigits (c :: r) = ([], c :: r) := by
  rw [takeDigits, digit?_of_letter h]

/-- A letter is no sign and no point. -/
theorem letter_ne {d : Char} (h : 65 ≤ c.toNat) (hd : d.toNat < 65) : c ≠ d := by
  rintro rfl
  omega

/-- What is a small letter in lower case is a letter. -/
theorem letter_of_toLower (h : 97 ≤ c.toLower.toNat) : 65 ≤ c.toNat := by
  unfold Char.toLower at h
  split at h
  next hupper => exact hupper.1
  next => omega

end Text

namespace Number

variable {s : String} {c : Char} {r : List Char}

theorem int64?_of_letter (hs : s.toList = c :: r) (h : 65 ≤ c.toNat) : int64? s = none := by
  have read : readInt (c :: r) = none := by
    unfold readInt
    split
    next e => exact absurd (List.cons.inj e).1 (Text.letter_ne h (by decide))
    next e => exact absurd (List.cons.inj e).1 (Text.letter_ne h (by decide))
    next => rw [readNat, Text.takeDigits_of_letter h]; rfl
  rw [int64?, hs, read]
  rfl

/-- Behind a letter there are only the words for infinity and for what is no number. -/
theorem readMagnitude_of_letter (h : 65 ≤ c.toNat) {x : Double}
    (hx : readMagnitude false (c :: r) = some x) : x.isFinite = false := by
  have mantissa : readMantissa (c :: r) = ([], [], c :: r) := by
    unfold readMantissa
    rw [Text.takeDigits_of_letter h]
    split
    next e =>
      cases e
      exact absurd rfl (Text.letter_ne h (by decide))
    next e => cases e; rfl
  unfold readMagnitude at hx
  split at hx
  · cases hx
    decide
  · cases hx
    decide
  · cases hx
    decide
  · rw [mantissa] at hx
    cases hx

theorem real?_of_letter (hs : s.toList = c :: r) (h : 65 ≤ c.toNat) :
    real? s = readMagnitude false (c :: r) := by
  unfold real?
  rw [hs]
  split
  next e => exact absurd (List.cons.inj e).1 (Text.letter_ne h (by decide))
  next e => exact absurd (List.cons.inj e).1 (Text.letter_ne h (by decide))
  next => rfl

end Number

namespace MetaValue

/-- All readings of a text, each by itself. -/
theorem project_eq (raw : String) : project raw = {
    value := raw
    raw
    long := (numbers (trim raw)).1
    double := (numbers (trim raw)).2
    boolean := switch (trim raw) (numbers (trim raw)).2
    date := (Moment.read? (trim raw)).map Moment.dateText
    datetime := (Moment.read? (trim raw)).map Moment.text
    time := match Moment.read? (trim raw) with
      | some t => some t.timeText
      | none => (timeOfDay? (trim raw)).map fun p => timeText p.1 p.2.1 p.2.2 } := by
  unfold project
  dsimp only
  cases Moment.read? (trim raw) <;> rfl

/-! ## Numbers and switches -/

theorem numbers_isSome_iff (s : String) :
    (numbers s).1.isSome = true ↔ (numbers s).2.isSome = true := by
  unfold numbers
  split
  · simp
  · split
    · split <;> simp
    · simp

/-- What begins with a letter writes no finite number. -/
theorem numbers_of_letter {s : String} {c : Char} {r : List Char} (hs : s.toList = c :: r)
    (h : 65 ≤ c.toNat) : numbers s = (none, none) := by
  rw [numbers, Number.int64?_of_letter hs h, Number.real?_of_letter hs h]
  cases hx : Number.readMagnitude false (c :: r) with
  | none => rfl
  | some x => simp [Number.readMagnitude_of_letter h hx]

/-- A word, in whatever case, writes no finite number; neither does the empty text. -/
theorem numbers_of_word {s word : String} (h : lower s = word)
    (letter : word.toList.head?.all (97 ≤ ·.toNat) = true) : numbers s = (none, none) := by
  have hlower : s.toList.map Char.toLower = word.toList := by
    rw [← Text.toList_lower, h]
  cases hs : s.toList with
  | nil =>
    rw [String.toList_eq_nil_iff.mp hs]
    decide +kernel
  | cons c r =>
    rw [hs, List.map_cons] at hlower
    rw [← hlower] at letter
    exact numbers_of_letter hs (Text.letter_of_toLower (of_decide_eq_true letter))

/-- A number is on unless it is zero: no word for a switch writes one. -/
theorem switch_number {s : String} {x : Double} (h : (numbers s).2 = some x) :
    switch s (some x) = some (!x.isZero) := by
  have noWord {word : String} (hs : lower s = word)
      (letter : word.toList.head?.all (97 ≤ ·.toNat) = true) : False := by
    rw [numbers_of_word hs letter] at h
    cases h
  unfold switch
  split <;> rename_i hs
  all_goals first | exact (noWord hs (by decide)).elim | rfl

/-! ## Dates and times -/

/-- The date, the moment and the time of a text that writes the moment `t`. -/
structure Writes (m : MetaValue) (t : Moment) : Prop where
  date : m.date = some t.dateText
  datetime : m.datetime = some t.text
  time : m.time = some t.timeText

theorem writes_of_read {raw : String} {t : Moment} (h : Moment.read? (trim raw) = some t) :
    Writes (project raw) t := by
  rw [project_eq, h]
  exact ⟨rfl, rfl, rfl⟩

/-- What writes no moment may still write a time of day. -/
theorem time_of_not_read {raw : String} (h : Moment.read? (trim raw) = none) :
    (project raw).date = none ∧ (project raw).datetime = none ∧
      (project raw).time = (timeOfDay? (trim raw)).map fun p => timeText p.1 p.2.1 p.2.2 := by
  rw [project_eq, h]
  dsimp only
  exact ⟨rfl, rfl, rfl⟩

theorem exists_writes {raw s : String}
    (h : s ∈ (project raw).date ∨ s ∈ (project raw).datetime) : ∃ t, Writes (project raw) t := by
  cases read : Moment.read? (trim raw) with
  | none =>
    obtain ⟨date, datetime, -⟩ := time_of_not_read read
    rw [date, datetime] at h
    simp at h
  | some t => exact ⟨t, writes_of_read read⟩

theorem timeText_eq (h m s : Nat) : timeText h m s = String.ofList (clockChars h m s) := by
  simp [timeText, clockChars]

theorem timeText_moment (t : Moment) :
    t.timeText = timeText t.hour t.minute t.writtenSecond := by
  rw [timeText_eq, Moment.timeText, Calendar.Scan.timeChars_eq_clockChars]

/-- A time has hours, minutes and seconds, of which there may be 60. -/
theorem exists_clock {raw t : String} (ht : t ∈ (project raw).time) :
    ∃ h m s, h < 24 ∧ m < 60 ∧ s ≤ 60 ∧ t = timeText h m s := by
  cases read : Moment.read? (trim raw) with
  | none =>
    rw [(time_of_not_read read).2.2] at ht
    obtain ⟨⟨h, m, s⟩, clock, rfl⟩ := Option.map_eq_some_iff.mp ht
    obtain ⟨hh, hm, hs⟩ := Calendar.timeOfDay?_range clock
    exact ⟨h, m, s, hh, hm, hs, rfl⟩
  | some t =>
    rw [(writes_of_read read).time] at ht
    cases ht
    obtain ⟨hh, hm, hs⟩ := t.written_range
    exact ⟨_, _, _, hh, hm, hs, timeText_moment t⟩

/-! ## Texts of readings -/

/-- The text of a moment writes the same moment, but for its fraction. -/
theorem writes_text (t : Moment) : Writes (project t.text) t := by
  have trimmed : trim t.text = t.text := by
    rw [trim, Moment.text, String.toList_ofList, Moment.trimChars_chars]
  have read : Moment.read? (trim t.text) = some t.wholeSecond := by
    rw [trimmed, Moment.read?_text]
  obtain ⟨date, datetime, time⟩ := writes_of_read read
  refine ⟨?_, ?_, ?_⟩
  · rw [date]
    rfl
  · rw [datetime, Moment.text_wholeSecond]
  · rw [time, Moment.timeText, Moment.timeChars_wholeSecond, Moment.timeText]

theorem date_dateText (t : Moment) : (project t.dateText).date = some t.dateText := by
  have trimmed : trim t.dateText = t.dateText :=
    Text.trim_ofList (Calendar.Scan.isBlank_dateChars t.date)
  have read : Moment.read? (trim t.dateText) = some (Moment.startOfDay t.date) := by
    rw [trimmed, Moment.read?_dateText]
  exact (writes_of_read read).date

/-- The text of a time of day writes this time, and no moment. -/
theorem project_timeText {h m s : Nat} (hh : h < 24) (hm : m < 60) (hs : s ≤ 60) :
    (project (timeText h m s)).time = some (timeText h m s) ∧
      (project (timeText h m s)).date = none := by
  have blank := Calendar.Scan.isBlank_clockChars h m s
  have trimmed : trim (timeText h m s) = timeText h m s := by
    rw [timeText_eq, Text.trim_ofList blank]
  have noMoment : Moment.read? (trim (timeText h m s)) = none := by
    rw [trimmed, timeText_eq, Moment.read?_ofList blank, Moment.ofChars?_clockChars]
  have clock : timeOfDay? (trim (timeText h m s)) = some (h, m, s) := by
    rw [trimmed, timeText_eq, Calendar.timeOfDay?_clockChars hh hm hs]
  obtain ⟨date, -, time⟩ := time_of_not_read noMoment
  rw [time, clock]
  exact ⟨rfl, date⟩

/-! ## All readings together -/

/-- How the readings `m` of a text fit together. -/
structure Coherent (text : String) (m : MetaValue) : Prop where
  value : m.value = text
  raw : m.raw = text
  /-- Blanks around the text do not matter to what it is read as. -/
  trimmed : { m with value := trim text, raw := trim text } = project (trim text)
  /-- An integer comes with a real number, and a real number with an integer. -/
  long : m.long.isSome = m.double.isSome
  /-- A real number is on unless it is zero. -/
  boolean : ∀ x ∈ m.double, m.boolean = some (!x.isZero)
  date : m.date.isSome = m.datetime.isSome
  /-- A date comes with a time, and the moment joins the two. -/
  datetime : ∀ d ∈ m.date, ∃ t, m.time = some t ∧ m.datetime = some (d ++ " " ++ t)
  /-- The text of the moment has the same date, moment and time. -/
  datetime_again : ∀ s ∈ m.datetime,
    (project s).date = m.date ∧ (project s).datetime = m.datetime ∧ (project s).time = m.time
  date_again : ∀ d ∈ m.date, (project d).date = some d
  /-- The text of the time has the same time and no date, whether the time came alone or not. -/
  time_again : ∀ t ∈ m.time, (project t).time = some t ∧ (project t).date = none

/-- The readings of every text fit together. -/
theorem project_coherent (text : String) : Coherent text (project text) where
  value := by rw [project_eq]
  raw := by rw [project_eq]
  trimmed := by rw [project_eq, project_eq (trim text), Text.trim_trim]
  long := by
    rw [project_eq]
    dsimp only
    exact Bool.eq_iff_iff.mpr (numbers_isSome_iff _)
  boolean := by
    intro x hx
    rw [project_eq] at hx ⊢
    dsimp only at hx ⊢
    rw [Option.mem_def.mp hx, switch_number hx]
  date := by
    rw [project_eq, Option.isSome_map, Option.isSome_map]
  datetime := by
    intro d hd
    obtain ⟨t, written⟩ := exists_writes (.inl hd)
    rw [written.date] at hd
    cases hd
    exact ⟨t.timeText, written.time, by rw [written.datetime, Moment.text_eq]⟩
  datetime_again := by
    intro s hs
    obtain ⟨t, written⟩ := exists_writes (.inr hs)
    rw [written.datetime] at hs
    cases hs
    have again := writes_text t
    rw [written.date, written.datetime, written.time]
    exact ⟨again.date, again.datetime, again.time⟩
  date_again := by
    intro d hd
    obtain ⟨t, written⟩ := exists_writes (.inl hd)
    rw [written.date] at hd
    cases hd
    exact date_dateText t
  time_again := by
    intro t ht
    obtain ⟨h, m, s, hh, hm, hs, rfl⟩ := exists_clock ht
    exact project_timeText hh hm hs

example : project " 2016-12-31T23:59:60Z\n" =
    { value := " 2016-12-31T23:59:60Z\n"
      raw := " 2016-12-31T23:59:60Z\n"
      date := some "2016-12-31"
      datetime := some "2016-12-31 23:59:60"
      time := some "23:59:60" } := by
  decide +kernel

end MetaValue
end ContentIndex
