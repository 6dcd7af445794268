import ContentIndex.Calendar.Date
import ContentIndex.Number.Integer

/-
  A moment is a date and a time of day, to the nanosecond and without a time zone. A second 60 is
  the second 59 with a thousand million nanoseconds or more; the type admits it nowhere else.
  Seconds are added on a count of seconds that knows no leap seconds. The texts of a moment give
  whole seconds; years outside 0 to 9999 are written with their sign.
-/

namespace ContentIndex.Calendar

open Text (twoDigits padded)

structure Moment where
  date : Date
  /-- The second of the day. -/
  second : Nat
  nano : Nat
  second_lt : second < 86400
  nano_lt : nano < 2000000000
  leap_at_59 : 1000000000 ≤ nano → second % 60 = 59
deriving DecidableEq, Repr

namespace Moment

def isLeap (t : Moment) : Bool :=
  1000000000 ≤ t.nano

def hour (t : Moment) : Nat := t.second / 3600
def minute (t : Moment) : Nat := t.second / 60 % 60

/-- The second of the minute, 59 also in a leap second. -/
def secondOfMinute (t : Moment) : Nat := t.second % 60

/-- The number of seconds from 1970-01-01 00:00:00. -/
def instant (t : Moment) : Int :=
  86400 * t.date.dayNumber + t.second

/-- The first moment of a day. -/
def startOfDay (d : Date) : Moment :=
  ⟨d, 0, 0, by decide, by decide, by decide⟩

/-- The moment from which seconds are counted. -/
def epoch : Moment :=
  startOfDay ⟨1970, 1, 1, by decide, by decide, by decide⟩

/-- The last whole second of a day. -/
def lastSecondOfDay (d : Date) : Moment :=
  ⟨d, 86399, 0, by decide, by decide, by decide⟩

/-- The moment so many seconds after 1970-01-01 00:00:00, if it is within the calendar and the
nanoseconds fit the second. -/
def ofInstant? (instant : Int) (nano : Nat) : Option Moment :=
  (Date.ofDayNumber? (instant / 86400)).bind fun d =>
    if h : nano < 2000000000 ∧ (1000000000 ≤ nano → (instant % 86400).toNat % 60 = 59) then
      some ⟨d, (instant % 86400).toNat, nano, by omega, h.1, h.2⟩
    else none

/-- A date and a time of day; the second 60 is a leap second. -/
def ofParts? (date : Date) (hour minute second nano : Nat) : Option Moment :=
  if h : hour < 24 ∧ minute < 60 ∧ second ≤ 60 ∧ nano < 1000000000 then
    some {
      date
      second := 3600 * hour + 60 * minute + min second 59
      nano := if second = 60 then nano + 1000000000 else nano
      second_lt := by omega
      nano_lt := by split <;> omega
      leap_at_59 := by split <;> omega
    }
  else none

/-- Adds seconds. Forward from a leap second, its whole second counts as the one before it;
backward, as the one after it. -/
def addSeconds? (t : Moment) (n : Int) : Option Moment :=
  if n = 0 then some t
  else if t.isLeap then ofInstant? (t.instant + n + if n < 0 then 1 else 0) (t.nano - 1000000000)
  else ofInstant? (t.instant + n) t.nano

/-- Adds months to the date and keeps the time of day. -/
def addMonths? (t : Moment) (n : Int) : Option Moment :=
  (t.date.addMonths? n).map fun d => { t with date := d }

/-- The moment without its fraction of a second; a leap second stays one. -/
def wholeSecond (t : Moment) : Moment :=
  { t with
    nano := if t.isLeap then 1000000000 else 0
    nano_lt := by split <;> decide
    leap_at_59 := by
      intro h
      split at h
      · rename_i hl
        exact t.leap_at_59 (by simpa [isLeap] using hl)
      · exact absurd h (by decide) }

end Moment

/-! ## Text -/

/-- A year in four digits, with a sign if it does not fit. -/
def yearChars (y : Int) : List Char :=
  if 0 ≤ y ∧ y ≤ 9999 then padded 4 y.natAbs
  else (if y < 0 then '-' else '+') :: padded 4 y.natAbs

def Date.chars (d : Date) : List Char :=
  yearChars d.year ++ '-' :: twoDigits d.month ++ '-' :: twoDigits d.day

namespace Moment

/-- The time of day; a leap second is second 60. -/
def timeChars (t : Moment) : List Char :=
  twoDigits t.hour ++ ':' :: twoDigits t.minute ++
    ':' :: twoDigits (t.secondOfMinute + if t.isLeap then 1 else 0)

def chars (t : Moment) : List Char :=
  t.date.chars ++ ' ' :: t.timeChars

/-- Year, month and day between hyphens. -/
def dateText (t : Moment) : String := String.ofList t.date.chars

/-- Hour, minute and second between colons. -/
def timeText (t : Moment) : String := String.ofList t.timeChars

/-- The date, a space and the time. -/
def text (t : Moment) : String := String.ofList t.chars

end Moment

/-! ## Laws -/

theorem Moment.ext {a b : Moment} (hd : a.date = b.date) (hs : a.second = b.second)
    (hn : a.nano = b.nano) : a = b := by
  cases a
  cases b
  simp_all

theorem Moment.wholeSecond_wholeSecond (t : Moment) :
    t.wholeSecond.wholeSecond = t.wholeSecond := by
  apply Moment.ext <;> simp only [wholeSecond, isLeap]
  by_cases h : 1000000000 ≤ t.nano <;> simp [h]

end ContentIndex.Calendar
