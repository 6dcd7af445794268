import ContentIndex.Calendar.Moment
import ContentIndex.Text.Blank

/-
  Reading dates and moments from text. Numbers may have fewer digits than they are written with,
  and blanks in front of them. Texts with a zone are of one exact shape and are brought to
  zone zero. A text of nine digits or more counts the seconds from 1970 on.
-/

namespace ContentIndex.Calendar

open Text (digit? takeDigits ofDigits trimStart trim isBlank)
open Number (readNat int64OfInt?)

/-- Reading from the front of a text. -/
abbrev Scan (α : Type) := StateT (List Char) Option α

namespace Scan

/-- The character `c`. -/
def char (c : Char) : Scan Unit
  | [] => none
  | d :: r => if d = c then some ((), r) else none

/-- Any number of blanks, also none. -/
def blanks : Scan Unit :=
  fun cs => some ((), trimStart cs)

/-- The leading digits, at most so many of them, and the rest. -/
def splitDigits : (most : Nat) → List Char → List Nat × List Char
  | 0, cs => ([], cs)
  | _, [] => ([], [])
  | n + 1, c :: r =>
    match digit? c with
    | some d => (d :: (splitDigits n r).1, (splitDigits n r).2)
    | none => ([], c :: r)

/-- A number of at least `least` and at most `most` digits. -/
def number (least most : Nat) : Scan Nat := fun cs =>
  let (ds, r) := splitDigits most cs
  if ds.length < least then none else some (ofDigits ds, r)

/-- A number of any positive number of digits. -/
def anyNumber : Scan Nat := fun cs =>
  match takeDigits cs with
  | ([], _) => none
  | (ds, r) => some (ofDigits ds, r)

/-- What stands at the front decides how to go on. -/
def peek : Scan (Option Char) :=
  fun cs => some (cs.head?, cs)

def skip : Scan Unit :=
  fun cs => some ((), cs.drop 1)

def reject {α : Type} : Scan α :=
  fun _ => none

def ofOption {α : Type} (o : Option α) : Scan α :=
  fun cs => o.map (·, cs)

/-- Reads a whole text. -/
def whole {α : Type} (s : Scan α) (cs : List Char) : Option α :=
  match s cs with
  | some (a, []) => some a
  | _ => none

/-! ## Dates and times -/

/-- A year of at most four digits, or a sign and any number of digits. -/
def year : Scan Int := do
  blanks
  match ← peek with
  | some '-' => do skip; return -(← anyNumber : Int)
  | some '+' => do skip; return (← anyNumber : Int)
  | _ => return (← number 1 4 : Int)

/-- One or two digits. -/
def pair : Scan Nat := do
  blanks
  number 1 2

/-- A date with hyphens; `gap` may stand before each of them. -/
def date (gap : Scan Unit) : Scan Date := do
  let y ← year
  gap
  char '-'
  let m ← pair
  gap
  char '-'
  let d ← pair
  ofOption (Date.ofParts? y m d)

/-- Hour, minute and second with colons; `gap` may stand before each of them. -/
def time (gap : Scan Unit) : Scan (Nat × Nat × Nat) := do
  let h ← pair
  gap
  char ':'
  let m ← pair
  gap
  char ':'
  let s ← pair
  return (h, m, s)

/-- A date and a time with `separator` between them. -/
def moment (separator : Scan Unit) : Scan Moment := do
  let d ← date (pure ())
  separator
  let (h, m, s) ← time (pure ())
  ofOption (Moment.ofParts? d h m s 0)

/-- Nanoseconds after a point. Digits after the ninth are passed over. -/
def fraction : Scan Nat := do
  match ← peek with
  | some '.' => do
    skip
    fun cs =>
      match takeDigits cs with
      | ([], _) => none
      | (ds, r) =>
        let kept := ds.take 9
        some (ofDigits kept * 10 ^ (9 - kept.length), r)
  | _ => return 0

/-- The letter between a date and a time: a `T` in either case, or a space. -/
def dateEnd : Scan Unit := do
  match ← peek with
  | some 'T' | some 't' | some ' ' => skip
  | _ => reject

/-- The seconds by which a zone is ahead: `Z`, or a sign, hours and minutes. The sign may be a
real minus sign. -/
def zone (separator : Scan Unit) : Scan Int := do
  let c ← peek
  skip
  match c with
  | some 'Z' | some 'z' => return 0
  | some '+' => return (← ahead)
  | some '-' | some '\u2212' => return -(← ahead)
  | _ => reject
where
  ahead : Scan Int := do
    let h ← number 2 2
    separator
    let m ← number 2 2
    if m < 60 then return 3600 * h + 60 * m else reject

/-- A moment of a zone as the moment of zone zero. -/
def fromZone (t : Moment) (offset : Int) : Scan Moment :=
  if offset.natAbs < 86400 then ofOption (Moment.ofInstant? (t.instant - offset) t.nano) else reject

/-- A moment with its zone, every number in full width. -/
def zonedMoment : Scan Moment := do
  let y ← number 4 4
  char '-'
  let mo ← number 2 2
  char '-'
  let d ← number 2 2
  dateEnd
  let h ← number 2 2
  char ':'
  let mi ← number 2 2
  char ':'
  let s ← number 2 2
  let n ← fraction
  let z ← zone (char ':')
  let day ← ofOption (Date.ofParts? y mo d)
  let t ← ofOption (Moment.ofParts? day h mi s n)
  fromZone t z

end Scan

/-- The moment that a text of digits counts to, in seconds from 1970. -/
def Moment.ofSecondsText? (cs : List Char) : Option Moment := do
  let n ← readNat cs
  let _ ← int64OfInt? n
  Moment.ofInstant? n 0

/-- The moment that trimmed characters write: seconds from 1970, a date and a time, a moment with
its zone, or a date alone, which stands for its first moment. -/
def Moment.ofChars? (cs : List Char) : Option Moment :=
  if 9 ≤ cs.length && cs.all Text.isDigit then ofSecondsText? cs
  else
    (Scan.moment Scan.blanks).whole cs
      <|> (Scan.moment (Scan.char 'T')).whole cs
      <|> Scan.zonedMoment.whole cs
      <|> ((Scan.date (pure ())).whole cs).map Moment.startOfDay

/-- The moment that a text writes. -/
def Moment.read? (s : String) : Option Moment :=
  Moment.ofChars? (Text.trimChars s.toList)

/-- The time of day that a text writes, on any date. -/
def timeOfDay? (s : String) : Option (Nat × Nat × Nat) := do
  let (h, m, s) ← (Scan.time (pure ())).whole s.toList
  if h < 24 ∧ m < 60 ∧ s ≤ 60 then some (h, m, s) else none

end ContentIndex.Calendar
