import ContentIndex.Json.Value
import ContentIndex.Text.Ascii
import ContentIndex.Text.Blank

/-
  Lenient readings of the JSON values in a request: numbers may be written as text, a single value
  may stand for a list, and a switch may be a boolean, a number or a word.
-/

namespace ContentIndex.Json.Value

open ContentIndex.Number (int64?)
open Text (trim lower)

/-- The text of a string, a number or a boolean. -/
def scalarText? : Value → Option String
  | .string s => some s
  | .number n => some (String.ofList n.chars)
  | .bool b => some (if b then "true" else "false")
  | _ => none

/-- The integer that a value writes. A real number is cut toward zero, and what lies beyond 64 bits
is the nearest integer that does not. -/
def asInt64? : Value → Option Int64
  | .number n => some ((n.int64?).getD n.toDouble.toInt64)
  | .string s => int64? (trim s)
  | _ => none

/-- The integer that a value writes, if it is not negative. -/
def asNatural? (v : Value) : Option UInt64 :=
  v.asInt64?.bind fun n => if 0 ≤ n then some (UInt64.ofNat n.toInt.toNat) else none

/-- Whether a switch is on. -/
def isOn : Value → Bool
  | .bool b => b
  | .number n => !n.toDouble.isZero
  | .string s => ["1", "true", "yes", "on"].contains (lower s)
  | _ => false

/-- The texts of a list, or of a single value. -/
def texts : Value → List String
  | .array vs => vs.filterMap scalarText?
  | v => v.scalarText?.toList

/-- The texts between commas, without blanks around them and without empty ones. -/
def commaTexts (v : Value) : List String :=
  let pieces := v.texts.flatMap fun s => (Text.splitAt ',' s.toList).map Text.trimChars
  (pieces.filter (! ·.isEmpty)).map String.ofList

/-- The numbers of a list, or a single one; negative ones are left out. -/
def naturals : Value → List UInt64
  | .array vs => vs.filterMap asNatural?
  | v => v.asNatural?.toList

/-- The items of a list, or the value as the only one. -/
def asItems : Value → List Value
  | .array vs => vs
  | v => [v]

end ContentIndex.Json.Value
