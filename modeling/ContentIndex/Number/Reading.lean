import ContentIndex.Number.Double
import ContentIndex.Number.Integer

/-
  Reading a real number from text. `real?` takes decimal notation with an optional sign, point and
  power of ten, and the words for infinity and not-a-number, and rounds once, to the nearest
  number. `scaled?` is the faster and slightly less exact rule of JSON text: a 64-bit
  significand is multiplied or divided by a power of ten, each step rounded on its own.
-/

namespace ContentIndex.Number

open Text (takeDigits ofDigits dropLead? lower)

/-- The number nearest to `digits * 10 ^ exponent`. Powers that leave the range of the format
whatever the digits are never computed. -/
def Double.ofDecimal (negative : Bool) (digits : Nat) (exponent : Int) : Double :=
  let size : Int := (natChars digits).length
  if digits = 0 ∨ exponent + size < -330 then Double.pack negative 0
  else if 310 < exponent + size then Double.pack negative Double.infinityField
  else Double.ofRatio negative (digits * 10 ^ exponent.toNat) (10 ^ (-exponent).toNat)

/-- A power of ten after `e` or `E`: an optional sign and at least one digit up to the end. -/
def readPower : List Char → Option Int
  | [] => some 0
  | c :: r => if c = 'e' ∨ c = 'E' then readInt r else none

/-- The digits before and after an optional point, and the rest. -/
def readMantissa (cs : List Char) : List Nat × List Nat × List Char :=
  match takeDigits cs with
  | (whole, '.' :: r) => (whole, takeDigits r)
  | (whole, r) => (whole, [], r)

/-- A number without its sign. -/
def readMagnitude (negative : Bool) (cs : List Char) : Option Double :=
  match lower (String.ofList cs) with
  | "inf" | "infinity" => some (Double.pack negative Double.infinityField)
  | "nan" => some (Double.pack negative (Double.infinityField + 2 ^ 51))
  | _ =>
    let (whole, part, rest) := readMantissa cs
    if whole.isEmpty && part.isEmpty then none
    else
      (readPower rest).map fun p =>
        Double.ofDecimal negative (ofDigits (whole ++ part)) (p - part.length)

/-- A real number as text, rounded to the nearest number of the format. -/
def real? (s : String) : Option Double :=
  match s.toList with
  | '-' :: r => readMagnitude true r
  | '+' :: r => readMagnitude false r
  | cs => readMagnitude false cs

/-- `10 ^ n`, rounded. -/
def tenTo (n : Nat) : Double :=
  Double.ofNat (10 ^ n)

/-- Multiplies or divides by a power of ten in steps of at most 308 decimal places. None when the
result is too large. -/
def scaled? (x : Double) (exponent : Int) : Option Double :=
  if exponent < -308 then
    if x.isZero then some x else scaled? (x.div (tenTo 308)) (exponent + 308)
  else if exponent < 0 then some (x.div (tenTo (-exponent).toNat))
  else if 308 < exponent then if x.isZero then some x else none
  else
    let y := x.mul (tenTo exponent.toNat)
    if y.isFinite then some y else none
termination_by (-exponent).toNat

end ContentIndex.Number
