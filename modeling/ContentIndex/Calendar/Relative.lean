import ContentIndex.Calendar.Reading

/-
  Moments given relative to another one: four words for whole days, or an amount of a unit, back or
  forth. Units up to the week have a fixed length; months and years move the date by a count of
  months. A shift that leaves the calendar gives no moment.
-/

namespace ContentIndex.Calendar

open Text (lower trimChars trimEndWhile words dropLead?)
open Number (readInt int64OfInt? int64?)

/-- What an amount counts. -/
inductive Span where
  | seconds (length : Nat)
  | months (length : Nat)
deriving DecidableEq, Repr

/-- The span that a word names, in the singular. -/
def Span.named? : String → Option Span
  | "second" | "sec" => some (.seconds 1)
  | "minute" | "min" => some (.seconds 60)
  | "hour" => some (.seconds 3600)
  | "day" => some (.seconds 86400)
  | "week" => some (.seconds 604800)
  | "month" => some (.months 1)
  | "year" => some (.months 12)
  | _ => none

/-- Moves a moment by so many spans. -/
def Moment.shift? (t : Moment) (amount : Int) : Span → Option Moment
  | .seconds n => t.addSeconds? (amount * n)
  | .months n => t.addMonths? (amount * n)

/-- The text in front of a given end. -/
def dropEnd? (tail cs : List Char) : Option (List Char) :=
  (dropLead? tail.reverse cs.reverse).map List.reverse

/-- The direction of an expression, and the amount and unit that are left of it. -/
def splitDirection (cs : List Char) : Int × List Char :=
  match dropEnd? [' ', 'a', 'g', 'o'] cs with
  | some r => (-1, r)
  | none =>
    match cs with
    | '-' :: r => (-1, r)
    | '+' :: r => (1, r)
    | r => (1, r)

/-- A signed amount and the span that it counts; the letter s may end the name of the span. -/
def readAmount? (cs : List Char) : Option (Int × Span) :=
  match Text.wordChars cs with
  | [amount, unit] => do
    let n ← (readInt amount).bind int64OfInt?
    let span ← Span.named? (String.ofList (trimEndWhile (· == 's') unit))
    some (n.toInt, span)
  | _ => none

/-- The moment that an expression gives, relative to `now`. -/
def Moment.relative? (s : String) (now : Moment) : Option Moment :=
  let midnight := Moment.startOfDay now.date
  let cs := trimChars s.toList |>.map Char.toLower
  match String.ofList cs with
  | "now" => some now
  | "today" => some midnight
  | "yesterday" => midnight.addSeconds? (-86400)
  | "tomorrow" => midnight.addSeconds? 86400
  | _ =>
    let (direction, body) := splitDirection cs
    (readAmount? body).bind fun (n, span) => now.shift? (direction * n) span

end ContentIndex.Calendar
