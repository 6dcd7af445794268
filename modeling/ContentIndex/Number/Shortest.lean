import ContentIndex.Number.Double
import ContentIndex.Number.Integer

/-
  The shortest decimal text of a binary64 number: the fewest digits that read back as the same
  number, and of those the nearest; of two that are equally near, the even one. A decimal reads
  back exactly if it lies in the interval of reals that round to the number; its ends belong to it
  when the significand is even. A `RealLayout` decides how the digits are laid out.
-/

namespace ContentIndex.Number

/-- The reals that round to a number, and the number itself, over one denominator. -/
structure Neighbourhood where
  low : Nat
  value : Nat
  high : Nat
  unit : Nat
  closed : Bool

/-- The neighbourhood of a finite number other than zero. The step below a power of two is half
the step above it. -/
def Double.neighbourhood (x : Double) : Neighbourhood :=
  let d := x.magnitude
  let m := d.significand
  let below := if m = 2 ^ 52 ∧ -1074 < d.exponent then 1 else 2
  let e := d.exponent - 2
  let up := 2 ^ e.toNat
  ⟨(4 * m - below) * up, 4 * m * up, (4 * m + 2) * up, 2 ^ (-e).toNat, m % 2 = 0⟩

/-- The decimal `digits * 10 ^ exponent`. -/
structure Decimal where
  digits : Nat
  exponent : Int
deriving DecidableEq, Repr

/-- Compares the real `n / unit` with a decimal. -/
def compareDecimal (n unit : Nat) (d : Decimal) : Ordering :=
  compare (n * 10 ^ (-d.exponent).toNat) (d.digits * 10 ^ d.exponent.toNat * unit)

/-- Whether a decimal reads back as the number of the neighbourhood. -/
def Neighbourhood.contains (b : Neighbourhood) (d : Decimal) : Bool :=
  let lo := compareDecimal b.low b.unit d
  let hi := compareDecimal b.high b.unit d
  (lo == .lt || b.closed && lo == .eq) && (hi == .gt || b.closed && hi == .eq)

/-- The least `e` with `n / unit < 10 ^ e`, for `n` and `unit` above zero. -/
def decimalExponent (n unit : Nat) : Int :=
  let guess := (((n.log2 : Int) - unit.log2 - 1) * 30103).fdiv 100000 - 1
  match [guess, guess + 1, guess + 2, guess + 3].find?
      fun e => compareDecimal n unit ⟨1, e⟩ == .lt with
  | some e => e
  | none => guess + 4

/-- The nearer of the two decimals with the given exponent around the number, if one of them
reads back; if they are equally near, the even one. -/
def Neighbourhood.onGrid (b : Neighbourhood) (exponent : Int) : Option Decimal :=
  let c := b.value * 10 ^ (-exponent).toNat / (b.unit * 10 ^ exponent.toNat)
  let down : Decimal := ⟨c, exponent⟩
  let up : Decimal := ⟨c + 1, exponent⟩
  match b.contains down, b.contains up with
  | true, false => some down
  | false, true => some up
  | false, false => none
  | true, true =>
    match compareDecimal (2 * b.value) b.unit ⟨2 * c + 1, exponent⟩ with
    | .lt => some down
    | .gt => some up
    | .eq => if c % 2 = 0 then some down else some up

/-- Moves the zeros at the end of the digits into the exponent. -/
def Decimal.strip : (fuel : Nat) → Decimal → Decimal
  | 0, d => d
  | fuel + 1, d =>
    if d.digits ≠ 0 ∧ d.digits % 10 = 0 then Decimal.strip fuel ⟨d.digits / 10, d.exponent + 1⟩
    else d

/-- The shortest decimal that reads back as a finite number other than zero. Seventeen digits
always suffice. -/
def Double.shortest (x : Double) : Decimal :=
  let b := x.neighbourhood
  let e := decimalExponent b.value b.unit
  match (List.range 17).findSome? fun n => b.onGrid (e - (n + 1 : Nat)) with
  | some d => d.strip 17
  | none => ⟨0, 0⟩

/-- How a decimal is written. The point stands among the digits while the number of digits in
front of it is above `leastPoint` and at most `mostPoint`; beyond, a power of ten follows. -/
structure RealLayout where
  leastPoint : Int
  mostPoint : Int
  /-- The mark of a positive power of ten. -/
  plus : List Char

/-- Writes the digits of a decimal above zero. -/
def RealLayout.chars (l : RealLayout) (d : Decimal) : List Char :=
  let ds := natChars d.digits
  let point : Int := ds.length + d.exponent
  if 0 ≤ d.exponent ∧ point ≤ l.mostPoint then
    ds ++ List.replicate d.exponent.toNat '0' ++ ['.', '0']
  else if 0 < point ∧ point ≤ l.mostPoint then
    ds.take point.toNat ++ '.' :: ds.drop point.toNat
  else if l.leastPoint < point ∧ point ≤ 0 then
    '0' :: '.' :: List.replicate (-point).toNat '0' ++ ds
  else
    let power := point - 1
    let mark := if power < 0 then ['-'] else l.plus
    let mantissa := match ds with
      | [] => []
      | [c] => [c]
      | c :: r => c :: '.' :: r
    mantissa ++ 'e' :: mark ++ natChars power.natAbs

/-- Writes a finite number; zero keeps its sign. -/
def RealLayout.write (l : RealLayout) (x : Double) : List Char :=
  let body := if x.isZero then ['0', '.', '0'] else l.chars x.shortest
  if x.isNegative then '-' :: body else body

end ContentIndex.Number
