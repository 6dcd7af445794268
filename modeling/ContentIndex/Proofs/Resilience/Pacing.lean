import ContentIndex.Proofs.Number.Accuracy
import ContentIndex.Resilience.Retry
import Mathlib.Tactic.NormNum

/-
  The delays of a policy. Each comes from the one before (`delayFor?_succ`), so none can be computed
  behind one that cannot. Under a bulk policy a delay is counted in seconds, as a real number, and
  counted in nanoseconds again. The two roundings together are off by less than half a nanosecond
  as long as the delay is below 2 ^ 23 seconds, a little more than 97 days
  (`secondsOfNanos_near`), so up to there the delay stays the same (`bulk_nextDelay?`).
-/

namespace ContentIndex

open Number Double

/-! ## Seconds and nanoseconds -/

/-- Whole seconds and a part of one, added as real numbers. -/
theorem addParts_near {s r : Nat} (hs : s < 2 ^ 23) (hr : r < 10 ^ 9) :
    ((ofNat s).addMagnitudes ((ofNat r).div (ofNat (10 ^ 9)))).Within (s + r / 10 ^ 9)
      (2 ^ (-31 : Int) + 2 ^ (-54 : Int)) := by
  have hwhole : (ofNat s).Within s 0 := ofNat_exact (by omega)
  have hrest : (ofNat r).Within r 0 := ofNat_exact (by omega)
  have hunit : (ofNat (10 ^ 9)).Within (10 ^ 9 : Nat) 0 := ofNat_exact (by decide)
  have hs' : (s : ℚ) + 1 ≤ 2 ^ 23 := by exact_mod_cast hs
  have hr' : (r : ℚ) / 10 ^ 9 ≤ 1 - 1 / 10 ^ 9 := by
    have hle : (r : ℚ) + 1 ≤ 10 ^ 9 := by exact_mod_cast hr
    linarith
  have hquot : ((ofNat r).div (ofNat (10 ^ 9))).Within (r / 10 ^ 9) (2 ^ (-54 : Int)) := by
    have hratio : (ofNat r).value / (ofNat (10 ^ 9)).value = r / 10 ^ 9 := by
      rw [hrest.eq, hunit.eq, Nat.cast_pow, Nat.cast_ofNat]
    rw [← hratio] at hr' ⊢
    refine div_near hrest.positive hunit.positive ?_ (by decide) (by decide) (k := 0) ?_
    · rw [hunit.eq]
      norm_num
    · rw [zpow_zero]
      linarith
  generalize (ofNat r).div (ofNat (10 ^ 9)) = q at hquot ⊢
  have hhigh := (abs_sub_le_iff.mp hquot.near).1
  have hsmall : (2 : ℚ) ^ (-54 : Int) < 1 / 10 ^ 9 := by norm_num
  have hsum : ((ofNat s).addMagnitudes q).Within (s + q.value) (2 ^ (-31 : Int)) := by
    have hlt : (ofNat s).value + q.value < 2 ^ (23 : Int) := by
      rw [hwhole.eq, show (2 : ℚ) ^ (23 : Int) = 2 ^ 23 by norm_num]
      linarith
    have hadd := add_near hwhole.positive (by decide) (by decide) hlt
    rwa [hwhole.eq] at hadd
  refine ⟨hsum.finite, hsum.positive, ?_⟩
  calc |((ofNat s).addMagnitudes q).value - (s + r / 10 ^ 9)|
      ≤ |((ofNat s).addMagnitudes q).value - (s + q.value)| +
          |(s + q.value) - (s + r / 10 ^ 9)| := abs_sub_le _ _ _
    _ ≤ 2 ^ (-31 : Int) + 2 ^ (-54 : Int) := by
        rw [add_sub_add_left_eq_sub]
        exact add_le_add hsum.near hquot.near

/-- A number of nanoseconds of less than 2 ^ 23 seconds is the one nearest to its seconds. -/
theorem secondsOfNanos_near {n : Nat} (h : n < 2 ^ 23 * nanosPerSecond) :
    (secondsOfNanos n).isFinite = true ∧ (secondsOfNanos n).isNegative = false ∧
      |(secondsOfNanos n).value * nanosPerSecond - n| < 1 / 2 := by
  have hunit : nanosPerSecond = 10 ^ 9 := rfl
  have hsplit : 10 ^ 9 * (n / 10 ^ 9) + n % 10 ^ 9 = n := Nat.div_add_mod n _
  rw [hunit] at h
  obtain ⟨hfinite, hpositive, hnear⟩ :=
    addParts_near (s := n / 10 ^ 9) (r := n % 10 ^ 9) (by omega) (by omega)
  rw [secondsOfNanos, hunit]
  refine ⟨hfinite, hpositive, ?_⟩
  generalize (ofNat (n / 10 ^ 9)).addMagnitudes ((ofNat (n % 10 ^ 9)).div (ofNat (10 ^ 9))) = x at *
  generalize n / 10 ^ 9 = s at *
  generalize n % 10 ^ 9 = r at *
  have hn : (n : ℚ) = (s + r / 10 ^ 9) * 10 ^ 9 := by
    rw [← hsplit]
    push_cast
    ring
  rw [Nat.cast_pow, Nat.cast_ofNat, hn, ← sub_mul, abs_mul,
    abs_of_pos (by norm_num : (0 : ℚ) < 10 ^ 9)]
  calc |x.value - (s + r / 10 ^ 9)| * 10 ^ 9
      ≤ (2 ^ (-31 : Int) + 2 ^ (-54 : Int)) * 10 ^ 9 :=
        mul_le_mul_of_nonneg_right hnear (by norm_num)
    _ < 1 / 2 := by norm_num

/-- A number of seconds is counted as the nanoseconds that it is near to. -/
theorem nanosOfSeconds?_near {x : Double} {n : Nat} (hfinite : x.isFinite = true)
    (hpositive : x.isNegative = false) (hlt : x.value < 2 ^ 64)
    (hnear : |x.value * nanosPerSecond - n| < 1 / 2) : nanosOfSeconds? x = some n := by
  have hfits : x.ratio.1 < 2 ^ 64 * x.ratio.2 := by
    rw [value, div_lt_iff₀ (Nat.cast_pos.mpr x.ratio_pos)] at hlt
    exact_mod_cast hlt
  have hround : divHalfEven (x.ratio.1 * nanosPerSecond) x.ratio.2 = n := by
    have hvalue : ((x.ratio.1 * nanosPerSecond : Nat) : ℚ) / x.ratio.2 =
        x.value * nanosPerSecond := by
      rw [value]
      push_cast
      rw [mul_div_right_comm]
    have hclose : |(divHalfEven (x.ratio.1 * nanosPerSecond) x.ratio.2 : ℚ) -
        x.value * nanosPerSecond| ≤ 1 / 2 := by
      rw [← hvalue]
      exact divHalfEven_near x.ratio_pos
    refine eq_of_near ?_
    calc |(divHalfEven (x.ratio.1 * nanosPerSecond) x.ratio.2 : ℚ) - n|
        ≤ |(divHalfEven (x.ratio.1 * nanosPerSecond) x.ratio.2 : ℚ) - x.value * nanosPerSecond| +
            |x.value * nanosPerSecond - n| := abs_sub_le _ _ _
      _ < 1 / 2 + 1 / 2 := add_lt_add_of_le_of_lt hclose hnear
      _ = 1 := add_halves 1
  rw [nanosOfSeconds?]
  simp [hfinite, hpositive, hfits, hround]

namespace RetryPolicy

/-! ## From delay to delay -/

theorem delayFor?_succ (p : RetryPolicy) {i : Nat} (h : 2 ≤ i) :
    p.delayFor? (i + 1) = (p.delayFor? i).bind p.nextDelay? := by
  obtain ⟨k, rfl⟩ := Nat.exists_eq_add_of_le' h
  rfl

/-- A delay that can be computed is behind such delays only. -/
theorem isSome_delayFor?_of_le (p : RetryPolicy) {i j : Nat} (hij : i ≤ j)
    (h : (p.delayFor? j).isSome = true) : (p.delayFor? i).isSome = true := by
  induction j, hij using Nat.le_induction with
  | base => exact h
  | succ j hij ih =>
    refine ih ?_
    match j with
    | 0 | 1 => rfl
    | j + 2 =>
      rw [p.delayFor?_succ (Nat.le_add_left 2 j)] at h
      exact Option.isSome_of_isSome_bind h

/-- Some delay is the first that cannot be computed. -/
theorem exists_missing {p : RetryPolicy} {k : Nat} (hk : 1 ≤ k) (h : p.delayFor? k = none) :
    ∃ i, 1 ≤ i ∧ i < k ∧ (p.delayFor? i).isSome = true ∧ p.delayFor? (i + 1) = none := by
  induction k, hk using Nat.le_induction with
  | base => cases h
  | succ k hk ih =>
    cases hdelay : p.delayFor? k with
    | some nanos => exact ⟨k, hk, Nat.lt_succ_self k, by rw [hdelay]; rfl, h⟩
    | none =>
      obtain ⟨i, hi, hlt, hsome, hnone⟩ := ih hdelay
      exact ⟨i, hi, Nat.lt_succ_of_lt hlt, hsome, hnone⟩

/-! ## Bulk policies -/

/-- All delays are the same exactly if there is at most one, or the third is the second. -/
theorem bulk_delays_iff (attempts : UInt64) (delay : Nat) {k : Nat} (hk : 1 ≤ k) :
    (∀ i, 2 ≤ i → i ≤ k → (bulk attempts delay).delayFor? i = some delay) ↔
      k ≤ 2 ∨ (bulk attempts delay).nextDelay? delay = some delay := by
  constructor
  · intro h
    refine (Nat.lt_or_ge 2 k).symm.imp_right fun hthree => ?_
    have hthird := (bulk attempts delay).delayFor?_succ (Nat.le_refl 2)
    rw [h 2 (Nat.le_refl 2) (by omega), h 3 (by decide) hthree] at hthird
    exact hthird.symm
  · intro h i hi hle
    induction i, hi using Nat.le_induction with
    | base => rfl
    | succ i hi ih =>
      have hsame := h.resolve_left (by omega)
      rw [delayFor?_succ _ hi, ih (by omega), Option.bind_some, hsame]

/-- The factor of a bulk policy is one, so a delay is only counted anew. -/
theorem bulk_nextDelay? (attempts : UInt64) {delay : Nat} (h : delay < 2 ^ 23 * nanosPerSecond) :
    (bulk attempts delay).nextDelay? delay = some delay := by
  obtain ⟨-, hpositive, hnear⟩ := secondsOfNanos_near h
  have hone : (ofNat 1).Within (1 : Nat) 0 := ofNat_exact (by decide)
  rw [Nat.cast_one] at hone
  have hbound : (secondsOfNanos delay).value < 2 ^ (24 : Int) := by
    have hunit : (nanosPerSecond : ℚ) = 1000000000 := by norm_num [nanosPerSecond]
    have hdelay : (delay : ℚ) < 2 ^ 23 * nanosPerSecond := by exact_mod_cast h
    have hhigh := (abs_sub_lt_iff.mp hnear).1
    rw [hunit] at hdelay hhigh
    norm_num
    linarith
  have hproduct := one_mul_exact hone hpositive
    (hbound.trans (zpow_lt_zpow_right₀ one_lt_two (by decide)))
  have hnanos : nanosOfSeconds? ((ofNat 1).mul (secondsOfNanos delay)) = some delay := by
    refine nanosOfSeconds?_near hproduct.finite hproduct.positive ?_ ?_
    · rw [hproduct.eq]
      exact hbound.trans (by norm_num)
    · rwa [hproduct.eq]
  rw [nextDelay?, bulk]
  dsimp only
  rw [if_pos hone.finite, hnanos, Option.map_some, Nat.min_self]

end RetryPolicy
end ContentIndex
