import ContentIndex.Number.Double

/-
  Numbers of the IEEE binary32 format, as far as rates need them: rounding a ratio or a binary64
  number, and order.
-/

namespace ContentIndex.Number

/-- A number with twenty-four bits of significand. -/
structure Single where
  negative : Bool
  magnitude : Dyadic
deriving DecidableEq, Repr

namespace Single

/-- Twenty-four bits of significand, and steps no smaller than 2 ^ (-149). -/
def format : BinaryFormat := ⟨24, -149⟩

/-- The number nearest to `num / den`. -/
def ofRatio (num den : Nat) : Single :=
  ⟨false, if num = 0 then ⟨0, 0⟩ else format.round num den⟩

/-- The number nearest to a finite one of more precision. -/
def ofDouble (x : Double) : Single :=
  let (a, b) := x.ratio
  ⟨x.isNegative, (ofRatio a b).magnitude⟩

/-- Order of the numbers; the two zeros are equal. -/
def le (x y : Single) : Bool :=
  match x.negative, y.negative with
  | false, false => x.magnitude.le y.magnitude
  | true, true => y.magnitude.le x.magnitude
  | true, false => true
  | false, true => x.magnitude.significand = 0 && y.magnitude.significand = 0

end Single
end ContentIndex.Number
