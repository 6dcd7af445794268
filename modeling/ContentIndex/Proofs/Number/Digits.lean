import ContentIndex.Number.Integer
import ContentIndex.Text.Blank

/-
  Decimal digits and the numbers that they write. Digits in any number, also with zeros in front,
  are read as what they write (`readNat_digits`), up to where they end (`takeDigits_digits`).
  Integers are read back from their decimal text, the negative ones too (`readInt_intChars`).
-/

namespace ContentIndex

open Text (digit? takeDigits ofDigits twoDigits padded isBlank)

namespace Text

/-- The characters do not begin with a digit. -/
def NoDigitHead (cs : List Char) : Prop := ∀ c r, cs = c :: r → digit? c = none

theorem noDigitHead_cons {c : Char} {r : List Char} (h : digit? c = none) :
    NoDigitHead (c :: r) := by
  intro d r' e
  cases e
  exact h

theorem isBlank_digitChar {d : Nat} (h : d < 10) : isBlank d.digitChar = false := by
  have all : ∀ d, d < 10 → isBlank d.digitChar = false := by decide
  exact all d h

theorem ofDigits_zeros (k : Nat) (ds : List Nat) :
    ofDigits (List.replicate k 0 ++ ds) = ofDigits ds := by
  induction k with
  | zero => rfl
  | succ k ih => rwa [List.replicate_succ, List.cons_append, ofDigits, List.foldl_cons]

theorem takeDigits_digits {ds : List Nat} (h : ∀ d ∈ ds, d < 10) {rest : List Char}
    (hr : NoDigitHead rest) : takeDigits (ds.map Nat.digitChar ++ rest) = (ds, rest) := by
  induction ds with
  | nil =>
    cases rest with
    | nil => rfl
    | cons c r => simp [takeDigits, hr c r rfl]
  | cons d ds ih =>
    have hd : digit? d.digitChar = some d := Number.digit?_digitChar (h d List.mem_cons_self)
    have later := ih fun d hd => h d (List.mem_cons_of_mem _ hd)
    simp [takeDigits, hd, later]

theorem digits_lt_ten (cs : List Char) : ∀ d ∈ (takeDigits cs).1, d < 10 := by
  induction cs with
  | nil => simp [takeDigits]
  | cons c r ih =>
    rw [takeDigits]
    cases hc : digit? c with
    | none => simp
    | some d =>
      have hd : d < 10 := by
        unfold digit? at hc
        split at hc
        · rename_i h
          have h9 : c.toNat ≤ 57 := h.2
          cases hc
          omega
        · cases hc
      simpa [hd] using ih

/-- A number in decimal, as its digits. -/
theorem toDigits_eq_digits (n : Nat) :
    ∃ ds, Nat.toDigits 10 n = ds.map Nat.digitChar ∧ (∀ d ∈ ds, d < 10) ∧ ofDigits ds = n ∧
      ds ≠ [] := by
  obtain ⟨ds, hds, hn, hne⟩ := Number.takeDigits_natChars_append n [] (by simp)
  rw [List.append_nil] at hds
  have back := takeDigits_append (Number.natChars n)
  have small := digits_lt_ten (Number.natChars n)
  rw [hds] at back small
  exact ⟨ds, by simpa [Number.natChars] using back.symm, small, hn, hne⟩

/-- A number in some width, as its digits; if it fits, there are as many of them. -/
theorem padded_eq_digits (width n : Nat) :
    ∃ ds, padded width n = ds.map Nat.digitChar ∧ (∀ d ∈ ds, d < 10) ∧ ofDigits ds = n ∧
      ds ≠ [] ∧ (0 < width → n < 10 ^ width → ds.length = width) := by
  obtain ⟨ds, hds, small, hn, hne⟩ := toDigits_eq_digits n
  refine ⟨List.replicate (width - ds.length) 0 ++ ds, ?_, ?_, ?_, ?_, ?_⟩
  · simp [padded, hds]
  · intro d hd
    rcases List.mem_append.mp hd with h | h
    · rw [List.eq_of_mem_replicate h]
      decide
    · exact small d h
  · rw [ofDigits_zeros, hn]
  · exact List.append_ne_nil_of_right_ne_nil _ hne
  · intro hw hlt
    have fits := (Nat.length_toDigits_le_iff (by decide) hw).mpr hlt
    rw [hds, List.length_map] at fits
    rw [List.length_append, List.length_replicate]
    omega

theorem twoDigits_eq_digits (n : Nat) : ∃ ds, twoDigits n = ds.map Nat.digitChar ∧
    (∀ d ∈ ds, d < 10) ∧ ds.length = 2 ∧ (n < 100 → ofDigits ds = n) := by
  refine ⟨[n / 10 % 10, n % 10], rfl, ?_, rfl, ?_⟩
  · intro d hd
    simp only [List.mem_cons, List.not_mem_nil, or_false] at hd
    omega
  · intro h
    simp only [ofDigits, List.foldl_cons, List.foldl_nil]
    omega

theorem toLower_digitChar {d : Nat} (h : d < 10) : d.digitChar.toLower = d.digitChar := by
  have all : ∀ d < 10, d.digitChar.toLower = d.digitChar := by decide
  exact all d h

theorem digitChar_ne_sign {d : Nat} (h : d < 10) : d.digitChar ≠ '-' ∧ d.digitChar ≠ '+' := by
  have all : ∀ d < 10, d.digitChar ≠ '-' ∧ d.digitChar ≠ '+' := by decide
  exact all d h

/-- A text with a digit is no word without digits, in whatever case. -/
theorem lower_ne_of_digit {s : String} {d : Nat} (small : d < 10) (h : d.digitChar ∈ s.toList)
    {word : String} (letters : word.toList.any isDigit = false) : lower s ≠ word := by
  intro heq
  have hmem : d.digitChar ∈ word.toList := by
    rw [← heq, toList_lower, ← toLower_digitChar small]
    exact List.mem_map_of_mem h
  have hdigit := List.any_eq_false.mp letters _ hmem
  rw [isDigit, Number.digit?_digitChar small] at hdigit
  exact hdigit rfl

end Text

namespace Number

theorem readNat_digits {ds : List Nat} (hne : ds ≠ []) (h : ∀ d ∈ ds, d < 10) :
    readNat (ds.map Nat.digitChar) = some (ofDigits ds) := by
  have taken : Text.takeDigits (ds.map Nat.digitChar ++ []) = (ds, []) :=
    Text.takeDigits_digits h fun c r e => nomatch e
  rw [List.append_nil] at taken
  rw [readNat, taken]
  cases ds with
  | nil => exact absurd rfl hne
  | cons d ds => rfl

/-- Digits alone are an integer without a sign. -/
theorem readInt_digits {ds : List Nat} (hne : ds ≠ []) (h : ∀ d ∈ ds, d < 10) :
    readInt (ds.map Nat.digitChar) = some (ofDigits ds : Int) := by
  have hread := readNat_digits hne h
  obtain ⟨d, ds, rfl⟩ := List.exists_cons_of_ne_nil hne
  have hd := Text.digitChar_ne_sign (h d List.mem_cons_self)
  rw [List.map_cons] at hread ⊢
  unfold readInt
  split
  next e => exact absurd (List.cons.inj e).1 hd.1
  next e => exact absurd (List.cons.inj e).1 hd.2
  next => rw [hread, Option.map_some]; rfl

theorem readInt_plus_digits {ds : List Nat} (hne : ds ≠ []) (h : ∀ d ∈ ds, d < 10) :
    readInt ('+' :: ds.map Nat.digitChar) = some (ofDigits ds : Int) := by
  rw [readInt, readNat_digits hne h]
  rfl

theorem readInt_minus_digits {ds : List Nat} (hne : ds ≠ []) (h : ∀ d ∈ ds, d < 10) :
    readInt ('-' :: ds.map Nat.digitChar) = some (-(ofDigits ds : Int)) := by
  rw [readInt, readNat_digits hne h]
  rfl

/-- A number starts with a digit; a digit is no sign, no blank and no capital. -/
theorem natChars_eq_cons (n : Nat) : ∃ d r, natChars n = d.digitChar :: r ∧ d < 10 ∧
    (∀ c ∈ natChars n, isBlank c = false) ∧ (natChars n).map Char.toLower = natChars n := by
  obtain ⟨ds, hds, small, -, hne⟩ := Text.toDigits_eq_digits n
  obtain ⟨d, ds, rfl⟩ := List.exists_cons_of_ne_nil hne
  refine ⟨d, ds.map Nat.digitChar, hds, small d List.mem_cons_self, ?_, ?_⟩
  · intro c hc
    rw [natChars, hds] at hc
    obtain ⟨k, hk, rfl⟩ := List.mem_map.mp hc
    exact Text.isBlank_digitChar (small k hk)
  · rw [natChars, hds, List.map_map]
    exact List.map_congr_left fun k hk => Text.toLower_digitChar (small k hk)

theorem readInt_natChars (n : Nat) : readInt (natChars n) = some (n : Int) := by
  obtain ⟨ds, hds, small, hn, hne⟩ := Text.toDigits_eq_digits n
  rw [natChars, hds, readInt_digits hne small, hn]

theorem readInt_intChars (i : Int) : readInt (intChars i) = some i := by
  obtain ⟨ds, hds, small, hn, hne⟩ := Text.toDigits_eq_digits i.natAbs
  unfold intChars
  split
  next h =>
    rw [natChars, hds, readInt_minus_digits hne small, hn]
    exact congrArg some (by omega)
  next h =>
    rw [readInt_natChars]
    exact congrArg some (by omega)

theorem intChars_ne_nil (i : Int) : intChars i ≠ [] := by
  obtain ⟨d, r, hcons, -⟩ := natChars_eq_cons i.natAbs
  unfold intChars
  split <;> simp [hcons]

theorem exists_digit_mem_intChars (i : Int) : ∃ d < 10, d.digitChar ∈ intChars i := by
  obtain ⟨d, r, hcons, small, -⟩ := natChars_eq_cons i.natAbs
  refine ⟨d, small, ?_⟩
  unfold intChars
  split <;> simp [hcons]

theorem isBlank_intChars (i : Int) : ∀ c ∈ intChars i, isBlank c = false := by
  obtain ⟨-, -, -, -, hblank, -⟩ := natChars_eq_cons i.natAbs
  unfold intChars
  split
  · exact List.forall_mem_cons.mpr ⟨by decide, hblank⟩
  · exact hblank

end Number
end ContentIndex
