import ContentIndex.Proofs.Document.Projection
import ContentIndex.Proofs.Number.LargeIntegers

/-
  Integers among custom values. A numeral is an optional sign and digits, in any number. One that is
  a signed word is kept exactly. One beyond the signed words is no integer to the first reader, so
  the second one takes it for a real number, whose integer part is cut to the signed words
  (`long_numeral`). So it becomes the largest or the smallest word, unless it is so large that it
  is rounded to infinity, which has no integer part.

  The integer of a numeral is therefore exact or absent except between the words and infinity, and
  two numerals have the same integer exactly if they write the same one or lie beyond the same
  end of the words (`integer_exact_iff`).
-/

namespace ContentIndex

open Number
open Number.Double (overflow signed)

namespace Number

/-! ## Words -/

/-- The signed word nearest to an integer. -/
def nearestInt64 (i : Int) : Int64 := Int64.ofInt (max (-2 ^ 63) (min (2 ^ 63 - 1) i))

theorem toInt_nearestInt64 (i : Int) :
    (nearestInt64 i).toInt = max (-2 ^ 63) (min (2 ^ 63 - 1) i) :=
  Int64.toInt_ofInt_of_le (by omega) (by omega)

/-- Two integers have the same nearest word if they are equal or beyond the same end. -/
theorem nearestInt64_eq_iff (i j : Int) : nearestInt64 i = nearestInt64 j ↔
    i = j ∨ (2 ^ 63 - 1 ≤ i ∧ 2 ^ 63 - 1 ≤ j) ∨ (i ≤ -2 ^ 63 ∧ j ≤ -2 ^ 63) := by
  rw [← Int64.toInt_inj, toInt_nearestInt64, toInt_nearestInt64]
  omega

theorem int64OfInt?_eq_some {i : Int} (h : -2 ^ 63 ≤ i ∧ i < 2 ^ 63) :
    int64OfInt? i = some (nearestInt64 i) := by
  rw [int64OfInt?, if_pos h, nearestInt64, Int.min_eq_right (by omega), Int.max_eq_right h.1]

theorem int64OfInt?_eq_none {i : Int} (h : ¬(-2 ^ 63 ≤ i ∧ i < 2 ^ 63)) :
    int64OfInt? i = none :=
  if_neg h

/-! ## Real numbers -/

namespace Double

theorem overflow_le : overflow ≤ 10 ^ 310 := by
  decide +kernel

/-- Digits without a point and a power are an integer; beyond 310 of them it is infinite without
being computed. -/
theorem ofDecimal_integer (negative : Bool) {n : Nat} (hpos : 0 < n) :
    ofDecimal negative n 0 =
      if 310 < (natChars n).length then pack negative infinityField else ofRatio negative n 1 := by
  unfold ofDecimal
  dsimp only
  rw [if_neg (by omega)]
  by_cases hlong : 310 < (natChars n).length
  · rw [if_pos (by omega), if_pos hlong]
  · rw [if_neg (by omega), if_neg hlong]
    simp

theorem overflow_le_of_length {n : Nat} (h : 310 < (natChars n).length) : overflow ≤ n := by
  have hlt := mt (Nat.length_toDigits_le_iff (b := 10) (by decide) (show 0 < 310 by decide)).mpr
    (Nat.not_le.mpr h)
  exact Nat.le_trans overflow_le (Nat.not_lt.mp hlt)

/-- The digits of an integer beyond the signed words are cut to the nearest word, below infinity. -/
theorem toInt64_ofDecimal_large (negative : Bool) {n : Nat} (hlow : 2 ^ 63 ≤ n)
    (hhigh : n < overflow) :
    (ofDecimal negative n 0).isFinite = true ∧
      (ofDecimal negative n 0).toInt64 = nearestInt64 (signed negative n) := by
  have hshort : ¬ 310 < (natChars n).length := fun hlong =>
    Nat.not_lt.mpr (overflow_le_of_length hlong) hhigh
  obtain ⟨hfinite, hword⟩ := toInt64_ofRatio_large negative hlow hhigh
  rw [ofDecimal_integer negative (by omega), if_neg hshort]
  refine ⟨hfinite, ?_⟩
  rw [hword, nearestInt64, signed]
  cases negative with
  | true =>
    rw [if_pos rfl, if_pos rfl, Int.max_eq_left (by omega)]
    rfl
  | false =>
    rw [if_neg Bool.false_ne_true, if_neg Bool.false_ne_true, Int.min_eq_left (by omega)]
    rfl

theorem isFinite_ofDecimal_overflow (negative : Bool) {n : Nat} (h : overflow ≤ n) :
    (ofDecimal negative n 0).isFinite = false := by
  have hword := word_lt_overflow
  rw [ofDecimal_integer negative (by omega)]
  split
  · exact isFinite_infinity negative
  · exact isFinite_ofRatio_overflow negative h

end Double

theorem readMagnitude_digits (negative : Bool) {ds : List Nat} (hne : ds ≠ [])
    (h : ∀ d ∈ ds, d < 10) : readMagnitude negative (ds.map Nat.digitChar) =
      some (Double.ofDecimal negative (Text.ofDigits ds) 0) := by
  obtain ⟨d, hd⟩ := List.exists_mem_of_ne_nil ds hne
  have hdigit : d.digitChar ∈ (String.ofList (ds.map Nat.digitChar)).toList := by
    rw [String.toList_ofList]
    exact List.mem_map_of_mem hd
  have hword {word : String} (letters : word.toList.any Text.isDigit = false) :=
    Text.lower_ne_of_digit (h d hd) hdigit letters
  have taken : Text.takeDigits (ds.map Nat.digitChar ++ []) = (ds, []) :=
    Text.takeDigits_digits h fun c r e => nomatch e
  rw [List.append_nil] at taken
  have mantissa : readMantissa (ds.map Nat.digitChar) = (ds, [], []) := by
    rw [readMantissa, taken]
  unfold readMagnitude
  split
  next heq => exact absurd heq (hword (by decide))
  next heq => exact absurd heq (hword (by decide))
  next heq => exact absurd heq (hword (by decide))
  next =>
    rw [mantissa]
    simp [hne, readPower]

end Number

/-! ## Numerals -/

/-- How a numeral is signed. -/
inductive Sign where
  | unsigned
  | plus
  | minus
deriving DecidableEq, Repr

def Sign.chars : Sign → List Char
  | .unsigned => []
  | .plus => ['+']
  | .minus => ['-']

/-- An optional sign and decimal digits, of which the first may be zeros. -/
structure Numeral where
  sign : Sign
  digits : List Nat
  digits_ne : digits ≠ []
  digits_lt : ∀ d ∈ digits, d < 10

namespace Numeral

variable (t : Numeral)

def chars : List Char := t.sign.chars ++ t.digits.map Nat.digitChar

def text : String := String.ofList t.chars

/-- The number that the digits write. -/
def magnitude : Nat := Text.ofDigits t.digits

/-- The integer that the numeral denotes. -/
def value : Int := signed (t.sign = .minus) t.magnitude

theorem magnitude_lt_overflow {t : Numeral} (h : -2 ^ 63 ≤ t.value ∧ t.value < 2 ^ 63) :
    t.magnitude < overflow := by
  have hlarge := Double.word_lt_overflow
  rw [value, signed] at h
  split at h <;> omega

/-- A numeral has no blanks. -/
theorem trim_text : Text.trim t.text = t.text := by
  have hblank : ∀ c ∈ t.chars, Text.isBlank c = false := by
    intro c hc
    rcases List.mem_append.mp hc with hsign | hdigit
    · have hall (s : Sign) : s.chars.any Text.isBlank = false := by
        cases s <;> decide
      simpa using List.any_eq_false.mp (hall _) c hsign
    · exact Text.isBlank_digits t.digits_lt c hdigit
  exact Text.trim_ofList hblank

theorem int64?_text : int64? t.text = int64OfInt? t.value := by
  have hread : readInt t.chars = some t.value := by
    rw [chars, value, magnitude, signed]
    cases t.sign with
    | unsigned => exact readInt_digits t.digits_ne t.digits_lt
    | plus => exact readInt_plus_digits t.digits_ne t.digits_lt
    | minus => exact readInt_minus_digits t.digits_ne t.digits_lt
  rw [int64?, text, String.toList_ofList, hread, Option.bind_some]

theorem real?_text : real? t.text = some (Double.ofDecimal (t.sign = .minus) t.magnitude 0) := by
  have hread (negative : Bool) := readMagnitude_digits negative t.digits_ne t.digits_lt
  have hchars : t.text.toList = t.chars := by rw [text, String.toList_ofList]
  unfold real?
  rw [hchars, chars, magnitude]
  cases t.sign with
  | unsigned =>
    obtain ⟨d, ds, hcons⟩ := List.exists_cons_of_ne_nil t.digits_ne
    have hd := Text.digitChar_ne_sign (t.digits_lt d (hcons ▸ List.mem_cons_self))
    rw [Sign.chars, List.nil_append]
    split
    next e =>
      rw [hcons] at e
      exact absurd (List.cons.inj e).1 hd.1
    next e =>
      rw [hcons] at e
      exact absurd (List.cons.inj e).1 hd.2
    next => exact hread false
  | plus => exact hread false
  | minus => exact hread true

end Numeral

/-! ## Projection -/

namespace MetaValue

/-- The integer of a numeral is the signed word that is nearest to it, unless it is rounded to
infinity. -/
theorem long_numeral (t : Numeral) : (project t.text).long =
    if t.magnitude < overflow then some (nearestInt64 t.value) else none := by
  rw [project_eq, t.trim_text, numbers, t.int64?_text]
  dsimp only
  by_cases hword : -2 ^ 63 ≤ t.value ∧ t.value < 2 ^ 63
  · rw [int64OfInt?_eq_some hword, if_pos (Numeral.magnitude_lt_overflow hword)]
  · have hlow : 2 ^ 63 ≤ t.magnitude := by
      rw [Numeral.value, signed] at hword
      split at hword <;> omega
    rw [int64OfInt?_eq_none hword, t.real?_text]
    dsimp only
    by_cases hfits : t.magnitude < overflow
    · obtain ⟨hfinite, hlong⟩ := Double.toInt64_ofDecimal_large (t.sign = .minus) hlow hfits
      rw [if_pos hfits, if_pos hfinite, hlong]
      rfl
    · have hinfinite := Double.isFinite_ofDecimal_overflow (t.sign = .minus) (Nat.not_lt.mp hfits)
      rw [if_neg hfits, hinfinite, if_neg Bool.false_ne_true]

/-- What a numeral is projected to, as an integer. It is the integer that the numeral denotes if
this is a signed word, and none if it is not, exactly unless the numeral lies beyond the words and
below infinity. Two numerals are projected to one integer exactly if neither is infinite and they
denote the same one or lie beyond the same end of the words. -/
theorem integer_exact_iff (t u : Numeral) :
    (project t.text).long =
        (if t.magnitude < overflow then some (nearestInt64 t.value) else none) ∧
      ((project t.text).long = int64OfInt? t.value ↔
        (-2 ^ 63 ≤ t.value ∧ t.value < 2 ^ 63) ∨ overflow ≤ t.magnitude) ∧
      ((∃ n, (project t.text).long = some n ∧ (project u.text).long = some n) ↔
        t.magnitude < overflow ∧ u.magnitude < overflow ∧ (t.value = u.value ∨
          (2 ^ 63 - 1 ≤ t.value ∧ 2 ^ 63 - 1 ≤ u.value) ∨
          (t.value ≤ -2 ^ 63 ∧ u.value ≤ -2 ^ 63))) := by
  refine ⟨long_numeral t, ?_, ?_⟩
  · rw [long_numeral]
    by_cases hword : -2 ^ 63 ≤ t.value ∧ t.value < 2 ^ 63
    · refine iff_of_true ?_ (.inl hword)
      rw [if_pos (Numeral.magnitude_lt_overflow hword), int64OfInt?_eq_some hword]
    · rw [int64OfInt?_eq_none hword, or_iff_right hword]
      simp
  · rw [long_numeral, long_numeral, ← nearestInt64_eq_iff]
    by_cases ht : t.magnitude < overflow <;> by_cases hu : u.magnitude < overflow <;>
      simp [ht, hu, eq_comm]

/-- The integer behind the largest signed word is projected to that word. -/
theorem integer_not_exact :
    (project "9223372036854775808").long = some 9223372036854775807 ∧
      int64OfInt? 9223372036854775808 = none ∧
      (project "9223372036854775807").long = some 9223372036854775807 := by
  decide +kernel

end MetaValue
end ContentIndex
