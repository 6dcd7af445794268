import ContentIndex.Number.Integer

/-
  Rounding a ratio of natural numbers to a binary format: `precision` bits of significand and a
  least exponent below which the steps no longer shrink. The nearest representable number is
  taken, and of two equally near ones the one with the even significand. `divHalfEven_error` says
  that no integer is nearer to the quotient than the one chosen.
-/

namespace ContentIndex.Number

/-- The integer nearest to `num / den`, a half going to the even neighbour. -/
def divHalfEven (num den : Nat) : Nat :=
  let q := num / den
  let r := num % den
  if 2 * r < den then q
  else if den < 2 * r then q + 1
  else if q % 2 = 0 then q else q + 1

/-- A binary format: the width of its significands and the exponent of its smallest step. -/
structure BinaryFormat where
  precision : Nat
  leastExponent : Int

/-- A number `significand * 2 ^ exponent`. -/
structure Dyadic where
  significand : Nat
  exponent : Int
deriving DecidableEq, Repr

/-- `num / den * 2 ^ (-e)` as a ratio of natural numbers. -/
def shiftRatio (num den : Nat) (e : Int) : Nat × Nat :=
  if 0 ≤ e then (num, den * 2 ^ e.toNat) else (num * 2 ^ (-e).toNat, den)

/-- The exponent at which `num / den` has exactly `precision` bits before the point, or the least
exponent of the format if that is larger. -/
def BinaryFormat.exponentOf (f : BinaryFormat) (num den : Nat) : Int :=
  let guess : Int := (num.log2 : Int) - den.log2 - f.precision + 1
  let (n, d) := shiftRatio num den guess
  let e := if n / d < 2 ^ (f.precision - 1) then guess - 1 else guess
  max e f.leastExponent

/-- The number of the format nearest to `num / den`. A significand that rounds up to
`2 ^ precision` is left as it is. -/
def BinaryFormat.round (f : BinaryFormat) (num den : Nat) : Dyadic :=
  let e := f.exponentOf num den
  let (n, d) := shiftRatio num den e
  ⟨divHalfEven n d, e⟩

/-- Order of the numbers that two dyadics stand for. -/
def Dyadic.le (x y : Dyadic) : Bool :=
  let e := min x.exponent y.exponent
  x.significand * 2 ^ (x.exponent - e).toNat ≤ y.significand * 2 ^ (y.exponent - e).toNat

/-! ## Laws -/

/-- Twice the distance between the quotient and the chosen integer is at most one. -/
theorem divHalfEven_error (num den : Nat) (h : 0 < den) :
    2 * num ≤ 2 * (divHalfEven num den * den) + den ∧
      2 * (divHalfEven num den * den) ≤ 2 * num + den := by
  have hdiv := Nat.div_add_mod num den
  have hlt := Nat.mod_lt num h
  have hmul : (num / den + 1) * den = den * (num / den) + den := by
    rw [Nat.add_mul, Nat.mul_comm, Nat.one_mul]
  have hcomm : num / den * den = den * (num / den) := Nat.mul_comm _ _
  simp only [divHalfEven]
  split
  · omega
  · split
    · omega
    · split <;> omega

theorem divHalfEven_mul (q den : Nat) (h : 0 < den) : divHalfEven (q * den) den = q := by
  simp [divHalfEven, Nat.mul_div_cancel _ h, h]

end ContentIndex.Number
