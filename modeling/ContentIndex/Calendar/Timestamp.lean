import ContentIndex.Calendar.Reading

/-
  Timestamps of stored records: moments of zone zero with as many digits of fraction as they need,
  in groups of three. Reading also takes other zones and brings them to zone zero, and lets
  blanks stand between the parts.
-/

namespace ContentIndex.Calendar

open Text (twoDigits padded lower)

namespace Scan

/-- Colons and blanks in any number and mixture. -/
def colonsOrBlanks : Scan Unit :=
  fun cs => some ((), cs.dropWhile fun c => c == ':' || Text.isBlank c)

/-- A zone, or the word UTC in any case. -/
def namedZone : Scan Int := fun cs =>
  if (cs.take 3).map Char.toLower = ['u', 't', 'c'] then some (0, cs.drop 3)
  else zone colonsOrBlanks cs

/-- A moment with its zone, numbers of any width, blanks between the parts and after the end. -/
def timestamp : Scan Moment := do
  let d ← date blanks
  dateEnd
  let (h, m, s) ← time blanks
  let n ← fraction
  blanks
  let z ← namedZone
  blanks
  let t ← ofOption (Moment.ofParts? d h m s n)
  fromZone t z

end Scan

namespace Moment

/-- The moment that a timestamp gives. -/
def readTimestamp? (s : String) : Option Moment :=
  Scan.timestamp.whole s.toList

/-- The digits after the second: none, or a point and three, six or nine of them. -/
def fractionChars (t : Moment) : List Char :=
  let n := t.nano % 1000000000
  if n = 0 then []
  else if n % 1000000 = 0 then '.' :: padded 3 (n / 1000000)
  else if n % 1000 = 0 then '.' :: padded 6 (n / 1000)
  else '.' :: padded 9 n

/-- The moment as a timestamp of zone zero. -/
def timestampText (t : Moment) : String :=
  String.ofList (t.date.chars ++ 'T' :: (t.timeChars ++ t.fractionChars) ++ ['Z'])

end Moment
end ContentIndex.Calendar
