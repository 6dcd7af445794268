import ContentIndex.Proofs.Number.LargeIntegers
import Mathlib.Data.Int.Log
import Mathlib.Data.Rat.Floor
import Mathlib.Tactic.Linarith

/-
  How near a rounded number is to the number that was meant. A quotient is rounded at steps of which
  it has fewer than 2 ^ 53 (`BinaryFormat.Rounds`), so what is packed is off by half a step at most:
  a quotient below 2 ^ k by 2 ^ (k - 54) (`ofRatio_near`). A quotient that is itself a number of
  the format is kept (`ofRatio_exact`). Values are rational numbers here.
-/

namespace ContentIndex.Number

/-! ## Shifted quotients -/

theorem shiftRatio_pos {num den : Nat} (h : 0 < den) (e : Int) : 0 < (shiftRatio num den e).2 := by
  unfold shiftRatio
  split
  · exact Nat.mul_pos h (Nat.two_pow_pos _)
  · exact h

theorem shiftRatio_value (num den : Nat) (e : Int) :
    ((shiftRatio num den e).1 : ℚ) / (shiftRatio num den e).2 = num / den * 2 ^ (-e) := by
  unfold shiftRatio
  split
  case isTrue h =>
    obtain ⟨k, rfl⟩ := Int.eq_ofNat_of_zero_le h
    rw [Int.toNat_natCast, zpow_neg, zpow_natCast]
    push_cast
    rw [div_mul_eq_div_div, div_eq_mul_inv _ (2 ^ k : ℚ)]
  case isFalse h =>
    obtain ⟨k, hk⟩ := Int.eq_ofNat_of_zero_le (show 0 ≤ -e by omega)
    rw [hk, Int.toNat_natCast, zpow_natCast]
    push_cast
    rw [mul_div_right_comm]

theorem divHalfEven_near {num den : Nat} (h : 0 < den) :
    |(divHalfEven num den : ℚ) - num / den| ≤ 1 / 2 := by
  have hden : (0 : ℚ) < den := Nat.cast_pos.mpr h
  obtain ⟨hlow, hhigh⟩ := divHalfEven_error num den h
  have hlow' : (2 : ℚ) * num ≤ 2 * (divHalfEven num den * den) + den := by exact_mod_cast hlow
  have hhigh' : (2 : ℚ) * (divHalfEven num den * den) ≤ 2 * num + den := by exact_mod_cast hhigh
  have hquot : (num : ℚ) = num / den * den := (div_mul_cancel₀ _ hden.ne').symm
  generalize (num : ℚ) / den = x at hquot
  rw [hquot] at hlow' hhigh'
  rw [abs_sub_le_iff]
  constructor <;> nlinarith

/-- The whole part of a quotient is below a number exactly if the quotient is. -/
theorem quotient_lt_iff {num den bound : Nat} (h : 0 < den) :
    num / den < bound ↔ (num : ℚ) / den < bound := by
  rw [Nat.div_lt_iff_lt_mul h, div_lt_iff₀ (Nat.cast_pos.mpr h)]
  exact_mod_cast Iff.rfl

/-- Natural numbers that are less than one apart are equal. -/
theorem eq_of_near {a b : Nat} (h : |(a : ℚ) - b| < 1) : a = b := by
  have h' : |(a : Int) - b| < 1 := by exact_mod_cast h
  rw [Int.abs_lt_one_iff] at h'
  omega

/-! ## Rounding to a format -/

/-- The leading bit of a quotient is known from those of its terms up to one place. -/
theorem log_quotient {num den : Nat} (hnum : 0 < num) (hden : 0 < den) :
    (num.log2 : Int) - den.log2 - 1 ≤ Int.log 2 ((num : ℚ) / den) ∧
      Int.log 2 ((num : ℚ) / den) < (num.log2 : Int) - den.log2 + 1 := by
  have hden' : (0 : ℚ) < den := Nat.cast_pos.mpr hden
  have hpos : (0 : ℚ) < num / den := div_pos (Nat.cast_pos.mpr hnum) hden'
  have hnumlow : (2 : ℚ) ^ (num.log2 : Int) ≤ num := by
    rw [zpow_natCast]
    exact_mod_cast Nat.log2_self_le hnum.ne'
  have hnumhigh : (num : ℚ) < 2 ^ ((num.log2 : Int) + 1) := by
    exact_mod_cast Nat.lt_log2_self (n := num)
  have hdenlow : (2 : ℚ) ^ (den.log2 : Int) ≤ den := by
    rw [zpow_natCast]
    exact_mod_cast Nat.log2_self_le hden.ne'
  have hdenhigh : (den : ℚ) < 2 ^ ((den.log2 : Int) + 1) := by
    exact_mod_cast Nat.lt_log2_self (n := den)
  rw [← Int.zpow_le_iff_le_log one_lt_two hpos, ← Int.lt_zpow_iff_log_lt one_lt_two hpos,
    le_div_iff₀ hden', div_lt_iff₀ hden']
  constructor
  · calc (2 : ℚ) ^ ((num.log2 : Int) - den.log2 - 1) * den
        ≤ 2 ^ ((num.log2 : Int) - den.log2 - 1) * 2 ^ ((den.log2 : Int) + 1) := by
          exact mul_le_mul_of_nonneg_left hdenhigh.le (zpow_pos two_pos _).le
      _ = 2 ^ (num.log2 : Int) := by
          rw [← zpow_add₀ two_ne_zero]
          congr 1
          omega
      _ ≤ num := hnumlow
  · calc (num : ℚ)
        < 2 ^ ((num.log2 : Int) + 1) := hnumhigh
      _ = 2 ^ ((num.log2 : Int) - den.log2 + 1) * 2 ^ (den.log2 : Int) := by
          rw [← zpow_add₀ two_ne_zero]
          congr 1
          omega
      _ ≤ 2 ^ ((num.log2 : Int) - den.log2 + 1) * den :=
          mul_le_mul_of_nonneg_left hdenlow (zpow_pos two_pos _).le

/-- The exponent is that of the leading bit, moved by the width of a significand. -/
theorem BinaryFormat.exponentOf_eq (f : BinaryFormat) (hf : 0 < f.precision) {num den : Nat}
    (hnum : 0 < num) (hden : 0 < den) :
    f.exponentOf num den =
      max (Int.log 2 ((num : ℚ) / den) - f.precision + 1) f.leastExponent := by
  have hpos : (0 : ℚ) < num / den := div_pos (Nat.cast_pos.mpr hnum) (Nat.cast_pos.mpr hden)
  obtain ⟨hlow, hhigh⟩ := log_quotient hnum hden
  unfold exponentOf
  dsimp only
  generalize hguess : (num.log2 : Int) - den.log2 - f.precision + 1 = guess
  -- the guess is too large by one exactly if the significand would lack a bit
  have htest : (shiftRatio num den guess).1 / (shiftRatio num den guess).2 <
      2 ^ (f.precision - 1) ↔ Int.log 2 ((num : ℚ) / den) < (num.log2 : Int) - den.log2 := by
    rw [quotient_lt_iff (shiftRatio_pos hden _), shiftRatio_value,
      ← Int.lt_zpow_iff_log_lt one_lt_two hpos, zpow_neg, ← div_eq_mul_inv,
      div_lt_iff₀ (zpow_pos two_pos _)]
    push_cast
    rw [← zpow_natCast, ← zpow_add₀ two_ne_zero,
      show ((f.precision - 1 : Nat) : Int) + guess = (num.log2 : Int) - den.log2 by omega]
  rw [ite_congr (propext htest) (fun _ => rfl) (fun _ => rfl)]
  split
  · congr 1
    omega
  · congr 1
    omega

/-- The number that a dyadic stands for. -/
def Dyadic.value (x : Dyadic) : ℚ :=
  x.significand * 2 ^ x.exponent

/-- A dyadic is the number that a positive one is rounded to in a format. -/
structure BinaryFormat.Rounds (f : BinaryFormat) (x : ℚ) (d : Dyadic) : Prop where
  least_le : f.leastExponent ≤ d.exponent
  below : x < 2 ^ (d.exponent + f.precision)
  /-- Steps are as small as the format has them. -/
  above : d.exponent = f.leastExponent ∨ 2 ^ (d.exponent + f.precision - 1) ≤ x
  near : |d.significand - x * 2 ^ (-d.exponent)| ≤ 1 / 2

theorem BinaryFormat.rounds_round (f : BinaryFormat) (hf : 0 < f.precision) {num den : Nat}
    (hnum : 0 < num) (hden : 0 < den) : f.Rounds (num / den) (f.round num den) := by
  have hpos : (0 : ℚ) < num / den := div_pos (Nat.cast_pos.mpr hnum) (Nat.cast_pos.mpr hden)
  have hexponent : (f.round num den).exponent = f.exponentOf num den := rfl
  have heq := f.exponentOf_eq hf hnum hden
  constructor
  case least_le =>
    rw [hexponent, heq]
    exact le_max_right (_ : Int) _
  case below =>
    rw [hexponent]
    exact_mod_cast (Int.lt_zpow_iff_log_lt one_lt_two hpos).mpr (by omega)
  case above =>
    rw [hexponent]
    rcases le_total (Int.log 2 ((num : ℚ) / den) - f.precision + 1) f.leastExponent with h | h
    · exact .inl (heq.trans (max_eq_right h))
    · right
      have hle : f.exponentOf num den + f.precision - 1 ≤ Int.log 2 ((num : ℚ) / den) := by omega
      exact_mod_cast (Int.zpow_le_iff_le_log one_lt_two hpos).mpr hle
  case near =>
    rw [hexponent, ← shiftRatio_value]
    exact divHalfEven_near (shiftRatio_pos hden _)

namespace BinaryFormat.Rounds

variable {f : BinaryFormat} {x : ℚ} {d : Dyadic}

theorem scaled_lt (h : f.Rounds x d) : x * 2 ^ (-d.exponent) < 2 ^ f.precision := by
  rw [zpow_neg, ← div_eq_mul_inv, div_lt_iff₀ (zpow_pos two_pos _), ← zpow_natCast,
    ← zpow_add₀ two_ne_zero, add_comm]
  exact h.below

theorem significand_le (h : f.Rounds x d) : d.significand ≤ 2 ^ f.precision := by
  have hlt : (d.significand : ℚ) < (2 ^ f.precision : Nat) + 1 := by
    push_cast
    linarith [(abs_sub_le_iff.mp h.near).1, h.scaled_lt]
  exact Nat.lt_succ_iff.mp (by exact_mod_cast hlt)

/-- A significand has all its bits, unless steps are as small as can be. -/
theorem le_significand (h : f.Rounds x d) (hf : 0 < f.precision) :
    d.exponent = f.leastExponent ∨ 2 ^ (f.precision - 1) ≤ d.significand := by
  refine h.above.imp_right fun habove => ?_
  have hscaled : (2 : ℚ) ^ (f.precision - 1) ≤ x * 2 ^ (-d.exponent) := by
    rw [zpow_neg, ← div_eq_mul_inv, le_div_iff₀ (zpow_pos two_pos _), ← zpow_natCast,
      ← zpow_add₀ two_ne_zero,
      show ((f.precision - 1 : Nat) : Int) + d.exponent = d.exponent + f.precision - 1 by omega]
    exact habove
  have hlt : ((2 ^ (f.precision - 1) : Nat) : ℚ) < d.significand + 1 := by
    push_cast
    linarith [(abs_sub_le_iff.mp h.near).2]
  exact Nat.lt_succ_iff.mp (by exact_mod_cast hlt)

/-- The error is half a step at most. -/
theorem value_near (h : f.Rounds x d) : |d.value - x| ≤ 2 ^ (d.exponent - 1) := by
  have hpos : (0 : ℚ) < 2 ^ d.exponent := zpow_pos two_pos _
  have hscale : d.value - x = (d.significand - x * 2 ^ (-d.exponent)) * 2 ^ d.exponent := by
    rw [Dyadic.value, sub_mul, mul_assoc, ← zpow_add₀ two_ne_zero, neg_add_cancel, zpow_zero,
      mul_one]
  rw [hscale, abs_mul, abs_of_pos hpos, zpow_sub_one₀ two_ne_zero, mul_comm (2 ^ d.exponent)]
  exact mul_le_mul_of_nonneg_right (by linarith [h.near]) hpos.le

/-- Steps below a power of two. -/
theorem exponent_le (h : f.Rounds x d) {k : Int} (hk : f.leastExponent + f.precision ≤ k)
    (hx : x < 2 ^ k) : d.exponent + f.precision ≤ k := by
  rcases h.above with hleast | habove
  · omega
  · have hlt := (zpow_lt_zpow_iff_right₀ one_lt_two).mp (habove.trans_lt hx)
    omega

end BinaryFormat.Rounds

namespace Double

/-- The absolute value of a finite number. -/
def value (x : Double) : ℚ :=
  x.ratio.1 / x.ratio.2

theorem ratio_pos (x : Double) : 0 < x.ratio.2 :=
  shiftRatio_pos Nat.one_pos _

theorem value_eq (x : Double) : x.value = x.magnitude.value := by
  rw [value, ratio, shiftRatio_value, Nat.cast_one, div_one, neg_neg, Dyadic.value]

/-- Exponent bits and fraction bits are read as they were packed. -/
theorem pack_bits (negative : Bool) {e f : Nat} (hf : f < 2 ^ 52) (he : e < 2047) :
    let x := pack negative (e * 2 ^ 52 + f)
    x.isFinite = true ∧ x.isNegative = negative ∧
      x.magnitude = if e = 0 then ⟨f, -1074⟩ else ⟨2 ^ 52 + f, (e : Int) - 1075⟩ := by
  have hexponent := exponentField_pack negative hf (show e < 2 ^ 11 by omega)
  have hfraction := fraction_pack negative hf (show e < 2 ^ 11 by omega)
  refine ⟨?_, isNegative_pack negative (by omega), ?_⟩
  · rw [isFinite, hexponent, bne_iff_ne]
    omega
  · rw [magnitude, hexponent, hfraction]

/-- What is packed from a significand and an exponent is the number they stand for, also if the
significand carries into the exponent. -/
theorem pack_dyadic (negative : Bool) {s : Nat} {e : Int} (he : -1074 ≤ e) (hs : s ≤ 2 ^ 53)
    (hnormal : e = -1074 ∨ 2 ^ 52 ≤ s)
    (hfield : (e + 1074).toNat * 2 ^ 52 + s < infinityField) :
    let x := pack negative ((e + 1074).toNat * 2 ^ 52 + s)
    x.isFinite = true ∧ x.isNegative = negative ∧ x.value = s * 2 ^ e := by
  obtain ⟨k, rfl⟩ : ∃ k : Nat, e = (k : Int) - 1074 := ⟨(e + 1074).toNat, by omega⟩
  rw [show ((k : Int) - 1074 + 1074).toNat = k by omega] at hfield ⊢
  rw [infinityField] at hfield
  -- subnormal numbers, normal ones, and the carry
  rcases Nat.lt_or_ge s (2 ^ 52) with hsmall | hlarge
  · have hk : k = 0 := by omega
    subst hk
    obtain ⟨hfinite, hsign, hmagnitude⟩ := pack_bits negative hsmall (show 0 < 2047 by decide)
    exact ⟨hfinite, hsign, by rw [value_eq, hmagnitude]; rfl⟩
  · rcases Nat.lt_or_ge s (2 ^ 53) with hbits | hcarry
    · have hsplit : k * 2 ^ 52 + s = (k + 1) * 2 ^ 52 + (s - 2 ^ 52) := by omega
      obtain ⟨hfinite, hsign, hmagnitude⟩ :=
        pack_bits negative (show s - 2 ^ 52 < 2 ^ 52 by omega) (show k + 1 < 2047 by omega)
      rw [hsplit]
      refine ⟨hfinite, hsign, ?_⟩
      rw [value_eq, hmagnitude, if_neg (by omega), Dyadic.value]
      dsimp only
      rw [Nat.add_sub_cancel' hlarge, show ((k + 1 : Nat) : Int) - 1075 = k - 1074 by omega]
    · have hs' : s = 2 ^ 53 := by omega
      have hsplit : k * 2 ^ 52 + s = (k + 2) * 2 ^ 52 + 0 := by omega
      obtain ⟨hfinite, hsign, hmagnitude⟩ :=
        pack_bits negative (show 0 < 2 ^ 52 by decide) (show k + 2 < 2047 by omega)
      rw [hsplit]
      refine ⟨hfinite, hsign, ?_⟩
      rw [value_eq, hmagnitude, if_neg (by omega), Dyadic.value, hs']
      dsimp only
      rw [show ((k + 2 : Nat) : Int) - 1075 = k - 1074 + 1 by omega, zpow_add_one₀ two_ne_zero]
      push_cast
      ring

/-- A finite number without a sign that is this far from another at most. -/
structure Within (x : Double) (v error : ℚ) : Prop where
  finite : x.isFinite = true
  positive : x.isNegative = false
  near : |x.value - v| ≤ error

theorem Within.eq {x : Double} {v : ℚ} (h : x.Within v 0) : x.value = v :=
  sub_eq_zero.mp (abs_nonpos_iff.mp h.near)

theorem ofRatio_zero (den : Nat) : (ofRatio false 0 den).Within 0 0 := by
  obtain ⟨hfinite, hsign, hmagnitude⟩ :=
    pack_bits false (show 0 < 2 ^ 52 by decide) (show 0 < 2047 by decide)
  refine ⟨hfinite, hsign, ?_⟩
  have hvalue : (ofRatio false 0 den).value = 0 := by
    rw [value_eq]
    refine (congrArg Dyadic.value hmagnitude).trans ?_
    rw [if_pos rfl, Dyadic.value, Nat.cast_zero, zero_mul]
  rw [hvalue, sub_zero, abs_zero]

/-- What a positive quotient is rounded to is packed as it is, unless it is too large. -/
theorem ofRatio_round {num den : Nat} (hnum : 0 < num) (hden : 0 < den)
    (hexponent : (format.round num den).exponent ≤ 970) :
    (ofRatio false num den).Within (format.round num den).value 0 := by
  have hrounds := format.rounds_round (by decide) hnum hden
  have hs : (format.round num den).significand ≤ 2 ^ 53 := hrounds.significand_le
  have hnormal : (format.round num den).exponent = -1074 ∨
      2 ^ 52 ≤ (format.round num den).significand := hrounds.le_significand (by decide)
  have hfield : ((format.round num den).exponent + 1074).toNat * 2 ^ 52 +
      (format.round num den).significand < infinityField := by
    rw [infinityField]
    omega
  have hpacked := pack_dyadic false hrounds.least_le hs hnormal hfield
  have heq : ofRatio false num den = pack false (((format.round num den).exponent + 1074).toNat
      * 2 ^ 52 + (format.round num den).significand) := by
    rw [ofRatio, if_neg (Nat.ne_of_gt hnum), Nat.min_eq_left (Nat.le_of_lt hfield)]
  rw [← heq] at hpacked
  refine ⟨hpacked.1, hpacked.2.1, ?_⟩
  rw [hpacked.2.2, Dyadic.value, sub_self, abs_zero]

/-- A quotient below a power of two is off by half a step at that power, at most. -/
theorem ofRatio_near {num den : Nat} {k : Int} (hden : 0 < den) (hk : -1021 ≤ k) (hk' : k ≤ 1023)
    (h : (num : ℚ) / den < 2 ^ k) :
    (ofRatio false num den).Within (num / den) (2 ^ (k - 54)) := by
  rcases Nat.eq_zero_or_pos num with rfl | hnum
  · obtain ⟨hfinite, hsign, hnear⟩ := ofRatio_zero den
    refine ⟨hfinite, hsign, ?_⟩
    rw [Nat.cast_zero, zero_div]
    exact hnear.trans (zpow_pos two_pos _).le
  · have hrounds := format.rounds_round (by decide) hnum hden
    have hexponent : (format.round num den).exponent + 53 ≤ k :=
      hrounds.exponent_le (show (-1074 : Int) + 53 ≤ k by omega) h
    have hround := ofRatio_round hnum hden (by omega)
    refine ⟨hround.finite, hround.positive, ?_⟩
    rw [hround.eq]
    exact hrounds.value_near.trans (zpow_le_zpow_right₀ one_le_two (by omega))

/-- A quotient that is a number of the format is kept. -/
theorem ofRatio_exact {num den m : Nat} {q : Int} (hden : 0 < den) (hm : m < 2 ^ 53)
    (hq : -1074 ≤ q) (heq : (num : ℚ) / den = m * 2 ^ q)
    (hlt : (num : ℚ) / den < 2 ^ (1023 : Int)) :
    (ofRatio false num den).Within (num / den) 0 := by
  rcases Nat.eq_zero_or_pos num with rfl | hnum
  · rw [Nat.cast_zero, zero_div]
    exact ofRatio_zero den
  have hrounds := format.rounds_round (by decide) hnum hden
  have hround := ofRatio_round hnum hden
    (by linarith [hrounds.exponent_le (show (-1074 : Int) + 53 ≤ 1023 by decide) hlt,
      show (format.precision : Int) = 53 from rfl])
  have hm' : (m : ℚ) < 2 ^ (53 : Int) := by exact_mod_cast hm
  have hbound : (num : ℚ) / den < 2 ^ (q + 53) := by
    rw [heq, zpow_add₀ two_ne_zero, mul_comm]
    exact mul_lt_mul_of_pos_left hm' (zpow_pos two_pos _)
  have hexponent : (format.round num den).exponent + 53 ≤ q + 53 :=
    hrounds.exponent_le (show (-1074 : Int) + 53 ≤ q + 53 by omega) hbound
  -- the steps divide the number, and no other multiple of them is within half a step
  obtain ⟨j, hj⟩ : ∃ j : Nat, q = (format.round num den).exponent + j :=
    ⟨(q - (format.round num den).exponent).toNat, by omega⟩
  have hsteps : (num : ℚ) / den * 2 ^ (-(format.round num den).exponent) =
      (m * 2 ^ j : Nat) := by
    rw [heq, mul_assoc, ← zpow_add₀ two_ne_zero, hj, add_neg_cancel_comm, zpow_natCast]
    push_cast
    rfl
  have hsignificand : (format.round num den).significand = m * 2 ^ j := by
    refine eq_of_near (lt_of_le_of_lt ?_ (by norm_num : (1 / 2 : ℚ) < 1))
    rw [← hsteps]
    exact hrounds.near
  have hvalue : (format.round num den).value = num / den := by
    rw [Dyadic.value, hsignificand, ← hsteps, mul_assoc, ← zpow_add₀ two_ne_zero, neg_add_cancel,
      zpow_zero, mul_one]
  rwa [hvalue] at hround

/-! ## Operations -/

theorem magnitude_bounds (x : Double) :
    x.magnitude.significand < 2 ^ 53 ∧ -1074 ≤ x.magnitude.exponent := by
  have hfraction : x.fraction < 2 ^ 52 := Nat.mod_lt _ (by decide)
  rw [magnitude]
  split
  · exact ⟨by dsimp only; omega, le_refl (-1074 : Int)⟩
  · exact ⟨by dsimp only; omega, by dsimp only; omega⟩

/-- Numbers with at most 53 bits are kept. -/
theorem ofNat_exact {n : Nat} (h : n < 2 ^ 53) : (ofNat n).Within n 0 := by
  have hvalue : (n : ℚ) / (1 : Nat) = n := by rw [Nat.cast_one, div_one]
  have hlt : (n : ℚ) < 2 ^ (1023 : Int) :=
    calc (n : ℚ) < 2 ^ (53 : Int) := by exact_mod_cast h
      _ ≤ 2 ^ (1023 : Int) := zpow_le_zpow_right₀ one_le_two (by decide)
  have hexact : (ofRatio false n 1).Within ((n : ℚ) / (1 : Nat)) 0 :=
    ofRatio_exact (q := 0) Nat.one_pos h (by decide) (by rw [hvalue, zpow_zero, mul_one])
      (by rwa [hvalue])
  rwa [hvalue] at hexact

/-- The quotient of two numbers, if it is below a power of two. -/
theorem div_near {x y : Double} (hx : x.isNegative = false) (hy : y.isNegative = false)
    (hpos : 0 < y.value) {k : Int} (hk : -1021 ≤ k) (hk' : k ≤ 1023)
    (h : x.value / y.value < 2 ^ k) : (x.div y).Within (x.value / y.value) (2 ^ (k - 54)) := by
  have hnum : 0 < y.ratio.1 := by
    rw [Nat.pos_iff_ne_zero]
    intro hzero
    rw [value, hzero, Nat.cast_zero, zero_div] at hpos
    exact hpos.false
  have hquot : ((x.ratio.1 * y.ratio.2 : Nat) : ℚ) / (x.ratio.2 * y.ratio.1 : Nat) =
      x.value / y.value := by
    push_cast
    rw [value, value, div_div_div_eq]
  rw [← hquot] at h ⊢
  rw [div, hx, hy]
  exact ofRatio_near (Nat.mul_pos x.ratio_pos hnum) hk hk' h

/-- The sum of two numbers, if it is below a power of two. -/
theorem add_near {x y : Double} (hx : x.isNegative = false) {k : Int} (hk : -1021 ≤ k)
    (hk' : k ≤ 1023) (h : x.value + y.value < 2 ^ k) :
    (x.addMagnitudes y).Within (x.value + y.value) (2 ^ (k - 54)) := by
  have hsum : ((x.ratio.1 * y.ratio.2 + y.ratio.1 * x.ratio.2 : Nat) : ℚ) /
      (x.ratio.2 * y.ratio.2 : Nat) = x.value + y.value := by
    push_cast
    rw [value, value, div_add_div _ _ (Nat.cast_ne_zero.mpr x.ratio_pos.ne')
      (Nat.cast_ne_zero.mpr y.ratio_pos.ne'), mul_comm (y.ratio.1 : ℚ)]
  rw [← hsum] at h ⊢
  rw [addMagnitudes, hx]
  exact ofRatio_near (Nat.mul_pos x.ratio_pos y.ratio_pos) hk hk' h

/-- The product with one. -/
theorem one_mul_exact {x y : Double} (hx : x.Within 1 0) (hy : y.isNegative = false)
    (hlt : y.value < 2 ^ (1023 : Int)) : (x.mul y).Within y.value 0 := by
  have hproduct : ((x.ratio.1 * y.ratio.1 : Nat) : ℚ) / (x.ratio.2 * y.ratio.2 : Nat) =
      y.value := by
    push_cast
    rw [mul_div_mul_comm, ← value, ← value, hx.eq, one_mul]
  obtain ⟨hm, hq⟩ := y.magnitude_bounds
  have hdyadic : ((x.ratio.1 * y.ratio.1 : Nat) : ℚ) / (x.ratio.2 * y.ratio.2 : Nat) =
      y.magnitude.significand * 2 ^ y.magnitude.exponent := by
    rw [hproduct, value_eq, Dyadic.value]
  rw [← hproduct] at hlt ⊢
  rw [mul, hx.positive, hy]
  exact ofRatio_exact (Nat.mul_pos x.ratio_pos y.ratio_pos) hm hq hdyadic hlt

end Double
end ContentIndex.Number
