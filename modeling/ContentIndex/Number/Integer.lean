import ContentIndex.Text.Ascii

/-
  Integers of 64 bits as decimal text: an optional sign, at least one digit, nothing else, and
  a value in range. `uint64?_natText` says that a written number reads back.
-/

namespace ContentIndex.Number

open Text (takeDigits ofDigits)

-- Powers are those of the core library, also beside Mathlib, which brings its own.
attribute [instance (20000), default_instance 20000] instPowNat

/-- A natural number in decimal. -/
def natChars (n : Nat) : List Char :=
  Nat.toDigits 10 n

/-- An integer in decimal, with a minus sign if it is negative. -/
def intChars (i : Int) : List Char :=
  if i < 0 then '-' :: natChars i.natAbs else natChars i.natAbs

def natText (n : Nat) : String :=
  String.ofList (natChars n)

def intText (i : Int) : String :=
  String.ofList (intChars i)

/-- The value of a text of digits; none for the empty text. -/
def readNat (cs : List Char) : Option Nat :=
  match takeDigits cs with
  | ([], _) => none
  | (ds, []) => some (ofDigits ds)
  | _ => none

/-- An integer with an optional sign of either kind. -/
def readInt : List Char → Option Int
  | '-' :: r => (readNat r).map fun n => -(n : Int)
  | '+' :: r => (readNat r).map Int.ofNat
  | cs => (readNat cs).map Int.ofNat

/-- An integer of 64 bits as its number, if it is in range. -/
def int64OfInt? (i : Int) : Option Int64 :=
  if -2 ^ 63 ≤ i ∧ i < 2 ^ 63 then some (Int64.ofInt i) else none

/-- A natural number of 64 bits as its word, if it is in range. -/
def uint64OfNat? (n : Nat) : Option UInt64 :=
  if n < 2 ^ 64 then some (UInt64.ofNat n) else none

/-- A text that writes a signed 64-bit integer. -/
def int64? (s : String) : Option Int64 :=
  (readInt s.toList).bind int64OfInt?

/-- A text that writes an unsigned 64-bit integer; a plus sign may stand in front. -/
def uint64? (s : String) : Option UInt64 :=
  match s.toList with
  | '+' :: r => (readNat r).bind uint64OfNat?
  | cs => (readNat cs).bind uint64OfNat?

/-! ## Laws -/

theorem digit?_digitChar {d : Nat} (h : d < 10) : Text.digit? d.digitChar = some d := by
  have hn := Nat.toNat_digitChar_of_lt_ten h
  have h0 : '0' ≤ d.digitChar := by
    show 48 ≤ d.digitChar.toNat
    omega
  have h9 : d.digitChar ≤ '9' := by
    show d.digitChar.toNat ≤ 57
    omega
  simp only [Text.digit?, h0, h9, and_self, if_true, hn]
  congr 1
  omega

theorem takeDigits_natChars_append (n : Nat) (rest : List Char)
    (h : ∀ c r, rest = c :: r → Text.digit? c = none) :
    ∃ ds, takeDigits (natChars n ++ rest) = (ds, rest) ∧ ofDigits ds = n ∧ ds ≠ [] := by
  have stop : takeDigits rest = ([], rest) := by
    cases rest with
    | nil => rfl
    | cons c r => rw [takeDigits, h c r rfl]
  have main : ∀ m : Nat, ∀ tail : List Char, ∃ ds, takeDigits (natChars m ++ tail)
      = (ds ++ (takeDigits tail).1, (takeDigits tail).2) ∧ ofDigits ds = m ∧ ds ≠ [] := by
    intro m
    induction m using Nat.strongRecOn with
    | ind m ih =>
      intro tail
      by_cases hm : m < 10
      · refine ⟨[m], ?_, by simp [ofDigits], by simp⟩
        rw [natChars, Nat.toDigits_of_lt_base hm, List.singleton_append, takeDigits,
          digit?_digitChar hm]
        rfl
      · obtain ⟨ds, e1, e2, _⟩ := ih (m / 10) (by omega) ((m % 10).digitChar :: tail)
        refine ⟨ds ++ [m % 10], ?_, ?_, by simp⟩
        · rw [natChars, Nat.toDigits_of_base_le (by decide) (by omega), List.append_assoc]
          have := e1
          rw [natChars] at this
          rw [List.singleton_append, this, takeDigits, digit?_digitChar (Nat.mod_lt _ (by decide))]
          simp
        · simp only [ofDigits, List.foldl_append, List.foldl_cons, List.foldl_nil] at e2 ⊢
          rw [e2]
          omega
  obtain ⟨ds, e1, e2, e3⟩ := main n rest
  exact ⟨ds, by rw [e1, stop, List.append_nil], e2, e3⟩

theorem readNat_natChars (n : Nat) : readNat (natChars n) = some n := by
  obtain ⟨ds, h, hv, hne⟩ := takeDigits_natChars_append n [] (by simp)
  rw [List.append_nil] at h
  rw [readNat, h]
  cases ds with
  | nil => exact absurd rfl hne
  | cons d ds => rw [← hv]

theorem natChars_ne_plus (n : Nat) (r : List Char) : natChars n ≠ '+' :: r := by
  intro h
  have := Nat.isDigit_of_mem_toDigits (b := 10) (n := n) (c := '+') (by decide) (by decide)
    (by rw [natChars] at h; rw [h]; exact List.mem_cons_self)
  exact absurd this (by decide)

/-- A 64-bit number written in decimal reads back as itself. -/
theorem uint64?_natText (n : UInt64) : uint64? (natText n.toNat) = some n := by
  simp only [uint64?, natText, String.toList_ofList]
  split
  · rename_i r h
    exact absurd h (natChars_ne_plus _ r)
  · simp [readNat_natChars, uint64OfNat?, n.toNat_lt]

end ContentIndex.Number
