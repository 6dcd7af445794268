import ContentIndex.Number.Rounding

/-
  Numbers of the IEEE binary64 format, as 64 bits with exact integer arithmetic on what the bits
  mean: a sign, a significand below 2 ^ 53 and a power of two. Sums, products and quotients are
  the exact result rounded once, to the nearest number and to the even one of two.
-/

namespace ContentIndex.Number

/-- A number of the binary64 format, given by its bits. -/
structure Double where
  bits : UInt64
deriving DecidableEq, Repr

namespace Double

/-- Fifty-three bits of significand, and steps no smaller than 2 ^ (-1074). -/
def format : BinaryFormat := ⟨53, -1074⟩

def isNegative (x : Double) : Bool :=
  2 ^ 63 ≤ x.bits.toNat

/-- The eleven exponent bits. -/
def exponentField (x : Double) : Nat :=
  x.bits.toNat / 2 ^ 52 % 2 ^ 11

/-- The fifty-two fraction bits. -/
def fraction (x : Double) : Nat :=
  x.bits.toNat % 2 ^ 52

def isFinite (x : Double) : Bool :=
  x.exponentField != 2047

def isZero (x : Double) : Bool :=
  x.bits.toNat % 2 ^ 63 == 0

/-- The absolute value of a finite number. -/
def magnitude (x : Double) : Dyadic :=
  if x.exponentField = 0 then ⟨x.fraction, -1074⟩
  else ⟨2 ^ 52 + x.fraction, (x.exponentField : Int) - 1075⟩

/-- The bits for a sign and a field of 63 bits. -/
def pack (negative : Bool) (field : Nat) : Double :=
  ⟨UInt64.ofNat (if negative then 2 ^ 63 + field else field)⟩

/-- The field of infinity: all exponent bits and no fraction. -/
def infinityField : Nat := 2047 * 2 ^ 52

def zero : Double := ⟨0⟩

/-- The number with the given sign nearest to `num / den`; infinity when that is too large.
A significand with its implicit bit carries into the exponent field by addition. -/
def ofRatio (negative : Bool) (num den : Nat) : Double :=
  let d := format.round num den
  let field := (d.exponent + 1074).toNat * 2 ^ 52 + d.significand
  pack negative (if num = 0 then 0 else min field infinityField)

def ofNat (n : Nat) : Double :=
  ofRatio false n 1

/-- The number nearest to an integer; zero has no sign. -/
def ofInt (i : Int) : Double :=
  ofRatio (decide (i < 0)) i.natAbs 1

def neg (x : Double) : Double :=
  ⟨x.bits ^^^ 0x8000000000000000⟩

/-- The absolute value of a finite number as a ratio of natural numbers. -/
def ratio (x : Double) : Nat × Nat :=
  shiftRatio x.magnitude.significand 1 (-x.magnitude.exponent)

/-- The product of two finite numbers, rounded once. -/
def mul (x y : Double) : Double :=
  let (a, b) := x.ratio
  let (c, d) := y.ratio
  ofRatio (x.isNegative != y.isNegative) (a * c) (b * d)

/-- The quotient of a finite number by a finite number other than zero, rounded once. -/
def div (x y : Double) : Double :=
  let (a, b) := x.ratio
  let (c, d) := y.ratio
  ofRatio (x.isNegative != y.isNegative) (a * d) (b * c)

/-- The sum of two finite numbers of the same sign, rounded once. -/
def addMagnitudes (x y : Double) : Double :=
  let (a, b) := x.ratio
  let (c, d) := y.ratio
  ofRatio x.isNegative (a * d + c * b) (b * d)

/-- The integer part of a finite number, cut toward zero. -/
def truncate (x : Double) : Int :=
  let (a, b) := x.ratio
  if x.isNegative then -((a / b : Nat) : Int) else ((a / b : Nat) : Int)

/-- Cuts toward zero; beyond the 64-bit integers the nearest of them is taken. -/
def toInt64 (x : Double) : Int64 :=
  if x.isFinite then
    Int64.ofInt (max (-2 ^ 63) (min (2 ^ 63 - 1) x.truncate))
  else if x.fraction != 0 then 0
  else if x.isNegative then Int64.minValue
  else Int64.maxValue

end Double
end ContentIndex.Number
