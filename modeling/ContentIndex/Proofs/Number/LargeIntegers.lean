import ContentIndex.Json.Number

/-
  Integers of more than 53 bits as real numbers. Such an integer is rounded to a multiple of a power
  of two, and rounding does not cross the power of two below it (`ofRatio_large`). So an integer
  beyond the signed words of 64 bits stays beyond them, and cutting the real number back to a
  word gives the largest or the smallest one, whichever integer it was (`toInt64_ofRatio_large`).
  From `overflow` on it is rounded to infinity (`isFinite_ofRatio_overflow`).
-/

namespace ContentIndex.Number

theorem divHalfEven_bounds (num den : Nat) :
    num / den ≤ divHalfEven num den ∧ divHalfEven num den ≤ num / den + 1 := by
  unfold divHalfEven
  dsimp only
  split
  · omega
  · split
    · omega
    · split <;> omega

/-- A quotient is rounded up from half a step behind an odd number on. -/
theorem divHalfEven_le_iff {n half s : Nat} (hhalf : 0 < half) (hs : s % 2 = 1) :
    divHalfEven n (2 * half) ≤ s ↔ n < (2 * s + 1) * half := by
  obtain ⟨hle, hge⟩ := divHalfEven_bounds n (2 * half)
  have hdiv := Nat.div_add_mod n (2 * half)
  have hmod := Nat.mod_lt n (show 0 < 2 * half by omega)
  have hsum : (2 * s + 1) * half = 2 * half * s + half := by
    rw [Nat.add_mul, Nat.one_mul, Nat.mul_right_comm]
  rw [hsum]
  rcases Nat.lt_trichotomy (n / (2 * half)) s with hq | hq | hq
  · have hnext := Nat.mul_le_mul_left (2 * half) hq
    rw [Nat.mul_succ] at hnext
    exact iff_of_true (by omega) (by omega)
  · unfold divHalfEven
    dsimp only
    rw [hq] at hdiv ⊢
    split
    · omega
    · split
      · omega
      · rw [if_neg (by omega)]
        omega
  · have hnext := Nat.mul_le_mul_left (2 * half) hq
    rw [Nat.mul_succ] at hnext
    exact iff_of_false (by omega) (by omega)

namespace Double

/-- An integer with `k` bits more than a significand has is rounded to a multiple of `2 ^ k`. -/
theorem round_large {n k : Nat} (hlow : 2 ^ (k + 52) ≤ n) (hhigh : n < 2 ^ (k + 53)) :
    format.round n 1 = ⟨divHalfEven n (2 ^ k), k⟩ := by
  have hpos : n ≠ 0 := Nat.ne_of_gt (Nat.lt_of_lt_of_le (Nat.two_pow_pos _) hlow)
  have hlog : n.log2 = k + 52 := (Nat.log2_eq_iff hpos).mpr ⟨hlow, hhigh⟩
  have hquot : ¬ n / 2 ^ k < 2 ^ 52 := by
    rw [Nat.not_lt, Nat.le_div_iff_mul_le (Nat.two_pow_pos k), ← Nat.pow_add, Nat.add_comm]
    exact hlow
  have hshift : shiftRatio n 1 k = (n, 2 ^ k) := by
    rw [shiftRatio, if_pos (Int.natCast_nonneg k), Nat.one_mul, Int.toNat_natCast]
  have hguess : (n.log2 : Int) - (1 : Nat).log2 - (format.precision : Nat) + 1 = k := by
    rw [hlog, show (1 : Nat).log2 = 0 from rfl, show format.precision = 53 from rfl]
    omega
  have hexponent : format.exponentOf n 1 = k := by
    unfold BinaryFormat.exponentOf
    dsimp only
    rw [hguess, hshift]
    dsimp only
    rw [show format.precision - 1 = 52 from rfl, if_neg hquot,
      show format.leastExponent = -1074 from rfl]
    omega
  rw [BinaryFormat.round, hexponent, hshift]

/-- The significand of such an integer has 53 bits, or is the least one with 54. -/
theorem significand_large {n k : Nat} (hlow : 2 ^ (k + 52) ≤ n) (hhigh : n < 2 ^ (k + 53)) :
    2 ^ 52 ≤ divHalfEven n (2 ^ k) ∧ divHalfEven n (2 ^ k) ≤ 2 ^ 53 := by
  have hleast : 2 ^ 52 ≤ n / 2 ^ k := by
    rw [Nat.le_div_iff_mul_le (Nat.two_pow_pos k), ← Nat.pow_add, Nat.add_comm]
    exact hlow
  have hmost : n / 2 ^ k < 2 ^ 53 := by
    rw [Nat.div_lt_iff_lt_mul (Nat.two_pow_pos k), ← Nat.pow_add, Nat.add_comm]
    exact hhigh
  obtain ⟨hle, hge⟩ := divHalfEven_bounds n (2 ^ k)
  omega

/-- The bits of a number are its sign and its field. -/
theorem toNat_bits_pack (negative : Bool) {field : Nat} (h : field < 2 ^ 63) :
    (pack negative field).bits.toNat = (if negative then 2 ^ 63 else 0) + field := by
  rw [pack, UInt64.toNat_ofNat']
  cases negative <;> simp <;> omega

theorem isNegative_pack (negative : Bool) {field : Nat} (h : field < 2 ^ 63) :
    (pack negative field).isNegative = negative := by
  rw [isNegative, toNat_bits_pack negative h]
  cases negative with
  | true => simp
  | false =>
    simp
    omega

theorem exponentField_pack (negative : Bool) {e f : Nat} (hf : f < 2 ^ 52) (he : e < 2 ^ 11) :
    (pack negative (e * 2 ^ 52 + f)).exponentField = e := by
  rw [exponentField, toNat_bits_pack negative (by omega)]
  cases negative <;> simp <;> omega

theorem fraction_pack (negative : Bool) {e f : Nat} (hf : f < 2 ^ 52) (he : e < 2 ^ 11) :
    (pack negative (e * 2 ^ 52 + f)).fraction = f := by
  rw [fraction, toNat_bits_pack negative (by omega)]
  cases negative <;> simp <;> omega

/-- An absolute value with a sign. -/
def signed (negative : Bool) (n : Nat) : Int :=
  if negative then -(n : Int) else n

/-- The number whose exponent bits and fraction bits are given, if its steps are integers. -/
theorem pack_normal (negative : Bool) {e f : Nat} (hf : f < 2 ^ 52) (hlow : 1075 ≤ e)
    (hhigh : e < 2047) :
    (pack negative (e * 2 ^ 52 + f)).isFinite = true ∧
      (pack negative (e * 2 ^ 52 + f)).truncate =
        signed negative ((2 ^ 52 + f) * 2 ^ (e - 1075)) := by
  have hexponent := exponentField_pack negative hf (show e < 2 ^ 11 by omega)
  have hfraction := fraction_pack negative hf (show e < 2 ^ 11 by omega)
  have hsign := isNegative_pack negative (show e * 2 ^ 52 + f < 2 ^ 63 by omega)
  have hmagnitude :
      (pack negative (e * 2 ^ 52 + f)).magnitude = ⟨2 ^ 52 + f, (e : Int) - 1075⟩ := by
    rw [magnitude, hexponent, hfraction, if_neg (by omega)]
  constructor
  · rw [isFinite, hexponent, bne_iff_ne]
    omega
  · have hratio : shiftRatio (2 ^ 52 + f) 1 (-((e : Int) - 1075)) =
        ((2 ^ 52 + f) * 2 ^ (e - 1075), 1) := by
      unfold shiftRatio
      split
      · rw [show e = 1075 by omega]
        simp
      · rw [show (- -((e : Int) - 1075)).toNat = e - 1075 by omega]
    rw [truncate, ratio, hmagnitude]
    dsimp only
    rw [hratio, hsign, Nat.div_one, signed]

/-- The number that is packed from a significand and a power of two stands for their product, unless
its field is that of infinity. -/
theorem pack_large (negative : Bool) {s k : Nat} (hlow : 2 ^ 52 ≤ s) (hhigh : s ≤ 2 ^ 53)
    (hfield : (k + 1074) * 2 ^ 52 + s < infinityField) :
    (pack negative ((k + 1074) * 2 ^ 52 + s)).isFinite = true ∧
      (pack negative ((k + 1074) * 2 ^ 52 + s)).truncate = signed negative (s * 2 ^ k) := by
  rw [infinityField] at hfield
  by_cases h : s = 2 ^ 53
  · have hsplit : (k + 1074) * 2 ^ 52 + s = (k + 1076) * 2 ^ 52 + 0 := by omega
    have hpower : (2 ^ 52 + 0) * 2 ^ (k + 1076 - 1075) = s * 2 ^ k := by
      rw [h, show k + 1076 - 1075 = k + 1 by omega, Nat.pow_succ]
      omega
    rw [hsplit, ← hpower]
    exact pack_normal negative (by omega) (by omega) (by omega)
  · have hsplit : (k + 1074) * 2 ^ 52 + s = (k + 1075) * 2 ^ 52 + (s - 2 ^ 52) := by omega
    have hpower : (2 ^ 52 + (s - 2 ^ 52)) * 2 ^ (k + 1075 - 1075) = s * 2 ^ k := by
      rw [Nat.add_sub_cancel' hlow, Nat.add_sub_cancel]
    rw [hsplit, ← hpower]
    exact pack_normal negative (by omega) (by omega) (by omega)

/-- The field of an integer with more bits than a significand has. -/
theorem ofRatio_large (negative : Bool) {n k : Nat} (hlow : 2 ^ (k + 52) ≤ n)
    (hhigh : n < 2 ^ (k + 53)) :
    ofRatio negative n 1 =
      pack negative (min ((k + 1074) * 2 ^ 52 + divHalfEven n (2 ^ k)) infinityField) := by
  have hpos : n ≠ 0 := Nat.ne_of_gt (Nat.lt_of_lt_of_le (Nat.two_pow_pos _) hlow)
  rw [ofRatio, round_large hlow hhigh]
  dsimp only
  rw [if_neg hpos, show ((k : Int) + 1074).toNat = k + 1074 by omega]

theorem isFinite_infinity (negative : Bool) : (pack negative infinityField).isFinite = false := by
  cases negative <;> decide

/-- Half a step of the largest finite numbers. -/
def halfStep : Nat := 2 ^ 970

/-- The least integer that is rounded to infinity. It lies half a step behind the largest finite
number, which has an odd significand. -/
def overflow : Nat := (2 * (2 ^ 53 - 1) + 1) * halfStep

theorem two_pow_le_halfStep {m : Nat} (h : m ≤ 970) : 2 ^ m ≤ halfStep := by
  unfold halfStep
  exact @Nat.pow_le_pow_right 2 (by decide) m 970 h

theorem halfStep_le_two_pow {m : Nat} (h : 970 ≤ m) : halfStep ≤ 2 ^ m := by
  unfold halfStep
  exact @Nat.pow_le_pow_right 2 (by decide) 970 m h

theorem word_lt_overflow : 2 ^ 64 < overflow := by
  have hstep : 2 ^ 11 ≤ halfStep := two_pow_le_halfStep (by decide)
  rw [overflow]
  omega

/-- An integer is rounded to a finite number exactly if it is less than that. -/
theorem field_lt_iff {n k : Nat} (hlow : 2 ^ (k + 52) ≤ n) (hhigh : n < 2 ^ (k + 53)) :
    (k + 1074) * 2 ^ 52 + divHalfEven n (2 ^ k) < infinityField ↔ n < overflow := by
  obtain ⟨hleast, hmost⟩ := significand_large hlow hhigh
  rw [infinityField, overflow]
  rcases Nat.lt_trichotomy k 971 with hk | hk | hk
  · have hstep : 2 ^ k ≤ halfStep := two_pow_le_halfStep (by omega)
    rw [Nat.pow_add] at hhigh
    exact iff_of_true (by omega) (by omega)
  · obtain ⟨j, rfl⟩ : ∃ j, k = j + 1 := ⟨k - 1, by omega⟩
    have hstep : halfStep = 2 ^ j :=
      Nat.le_antisymm (halfStep_le_two_pow (by omega)) (two_pow_le_halfStep (by omega))
    have hodd : (2 ^ 53 - 1) % 2 = 1 := by decide
    rw [hstep, ← divHalfEven_le_iff (Nat.two_pow_pos j) hodd, ← Nat.pow_succ', Nat.succ_eq_add_one]
    omega
  · obtain ⟨j, rfl⟩ : ∃ j, k = j + 2 := ⟨k - 2, by omega⟩
    have hstep : halfStep ≤ 2 ^ j := halfStep_le_two_pow (by omega)
    rw [Nat.add_assoc, Nat.pow_add] at hlow
    exact iff_of_false (by omega) (by omega)

/-- Every integer beyond the signed words has more bits than a significand. -/
theorem exists_excess {n : Nat} (h : 2 ^ 63 ≤ n) :
    ∃ k, 11 ≤ k ∧ 2 ^ (k + 52) ≤ n ∧ n < 2 ^ (k + 53) := by
  have hpos : n ≠ 0 := by omega
  have hlog : 63 ≤ n.log2 := (Nat.le_log2 hpos).mpr h
  refine ⟨n.log2 - 52, by omega, ?_, ?_⟩
  · rw [Nat.sub_add_cancel (by omega)]
    exact Nat.log2_self_le hpos
  · rw [show n.log2 - 52 + 53 = n.log2 + 1 by omega]
    exact Nat.lt_log2_self

/-- An integer beyond the signed words, below infinity, is cut to the nearest of them. -/
theorem toInt64_ofRatio_large (negative : Bool) {n : Nat} (hlow : 2 ^ 63 ≤ n)
    (hhigh : n < overflow) :
    (ofRatio negative n 1).isFinite = true ∧
      (ofRatio negative n 1).toInt64 = if negative then Int64.minValue else Int64.maxValue := by
  obtain ⟨k, hk, hleast, hmost⟩ := exists_excess hlow
  obtain ⟨hs, hs'⟩ := significand_large hleast hmost
  have hfield := (field_lt_iff hleast hmost).mpr hhigh
  obtain ⟨hfinite, htruncate⟩ := pack_large negative hs hs' hfield
  have hlarge : 2 ^ 52 * 2 ^ 11 ≤ divHalfEven n (2 ^ k) * 2 ^ k :=
    Nat.mul_le_mul hs (Nat.pow_le_pow_right (by decide) hk)
  rw [ofRatio_large negative hleast hmost, Nat.min_eq_left (Nat.le_of_lt hfield)]
  refine ⟨hfinite, ?_⟩
  rw [toInt64, if_pos hfinite, htruncate, signed]
  generalize divHalfEven n (2 ^ k) * 2 ^ k = m at hlarge
  cases negative with
  | true =>
    rw [if_pos rfl, if_pos rfl, Int.max_eq_left (by omega)]
    rfl
  | false =>
    rw [if_neg Bool.false_ne_true, if_neg Bool.false_ne_true, Int.min_eq_left (by omega)]
    rfl

theorem isFinite_ofRatio_overflow (negative : Bool) {n : Nat} (h : overflow ≤ n) :
    (ofRatio negative n 1).isFinite = false := by
  have hlow : 2 ^ 63 ≤ n := by
    have hword := word_lt_overflow
    omega
  obtain ⟨k, -, hleast, hmost⟩ := exists_excess hlow
  have hfield := mt (field_lt_iff hleast hmost).mp (Nat.not_lt.mpr h)
  rw [ofRatio_large negative hleast hmost, Nat.min_eq_right (Nat.not_lt.mp hfield),
    isFinite_infinity]

/-- An integer beyond the signed words is cut to the largest of them. -/
theorem toInt64_ofInt_large {n : Nat} (hlow : 2 ^ 63 ≤ n) (hhigh : n < 2 ^ 64) :
    (ofInt n).toInt64 = Int64.maxValue := by
  have hofInt : ofInt n = ofRatio false n 1 := by
    rw [ofInt, Int.natAbs_natCast, decide_eq_false (by omega)]
  have hfits : n < overflow := Nat.lt_trans hhigh word_lt_overflow
  rw [hofInt, (toInt64_ofRatio_large false hlow hfits).2, if_neg Bool.false_ne_true]

end Double
end ContentIndex.Number
