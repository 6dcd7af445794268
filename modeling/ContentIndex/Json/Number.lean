import ContentIndex.Number.Reading
import ContentIndex.Number.Shortest

/-
  Numbers of JSON text: an integer that fits in 64 bits, signed or not, or a finite real number.
  `Number.ofDigits?` reads the digits of a text. Digits beyond a 64-bit significand are dropped,
  and the significand is then scaled by a power of ten; a number too large for a finite real is
  no number at all. A negative zero is real.
-/

namespace ContentIndex.Json

open ContentIndex.Number

/-- A number as JSON text writes it. -/
inductive Number where
  | integer (value : Int) (inRange : -2 ^ 63 ≤ value ∧ value < 2 ^ 64)
  | real (value : Double) (finite : value.isFinite = true)
deriving DecidableEq

namespace Number

def ofInt? (i : Int) : Option Number :=
  if h : -2 ^ 63 ≤ i ∧ i < 2 ^ 64 then some (.integer i h) else none

def ofDouble? (x : Double) : Option Number :=
  if h : x.isFinite = true then some (.real x h) else none

def ofUInt64 (n : UInt64) : Number :=
  .integer n.toNat (by have := n.toNat_lt; omega)

def ofInt64 (n : Int64) : Number :=
  .integer n.toInt (by have := n.le_toInt; have := n.toInt_lt; omega)

/-- The number as an unsigned 64-bit integer; a real number is none, whatever its value. -/
def uint64? : Number → Option UInt64
  | .integer i _ => if 0 ≤ i then some (UInt64.ofNat i.toNat) else none
  | .real _ _ => none

/-- The number as a signed 64-bit integer; a real number is none, whatever its value. -/
def int64? : Number → Option Int64
  | .integer i _ => int64OfInt? i
  | .real _ _ => none

/-- The nearest real number. -/
def toDouble : Number → Double
  | .integer i _ => Double.ofInt i
  | .real x _ => x

/-- Adds digits to a significand while it stays below 2 ^ 64; the digits left over follow. -/
def accumulate : (significand : Nat) → List Nat → Nat × List Nat
  | s, [] => (s, [])
  | s, d :: ds => if 10 * s + d < 2 ^ 64 then accumulate (10 * s + d) ds else (s, d :: ds)

/-- A real number from its significand and power of ten, with a sign. -/
def scaledReal? (negative : Bool) (significand : Nat) (power : Int) : Option Number :=
  (scaled? (Double.ofNat significand) power).bind fun x => ofDouble? (if negative then x.neg else x)

/-- The number with the given sign, digits before the point, digits after it (if there is a
point) and power of ten (if one is written). -/
def ofDigits? (negative : Bool) (whole : List Nat) (part : Option (List Nat)) (power : Option Int) :
    Option Number :=
  let (s, dropped) := accumulate 0 whole
  match part, power, dropped with
  | none, none, [] =>
    if negative then
      if 0 < s ∧ s ≤ 2 ^ 63 then ofInt? (-(s : Int)) else scaledReal? true s 0
    else ofInt? s
  | _, _, _ =>
    let digits := part.getD []
    let (t, rest) := accumulate s digits
    scaledReal? negative t (dropped.length - (digits.length - rest.length : Nat) + power.getD 0)

/-- Real numbers keep their point up to sixteen digits and a power of ten has its sign. -/
def realLayout : RealLayout := ⟨-5, 16, ['+']⟩

/-- The number as JSON text. -/
def chars : Number → List Char
  | .integer i _ => intChars i
  | .real x _ => realLayout.write x

@[simp] theorem uint64?_ofUInt64 (n : UInt64) : (ofUInt64 n).uint64? = some n := by
  simp [ofUInt64, uint64?]

end Number
end ContentIndex.Json
