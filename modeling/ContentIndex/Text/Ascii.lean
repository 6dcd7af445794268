/-
  Text compared and read without regard to the case of its ASCII letters, and the small ASCII
  classes that the readers share. No other letter changes case: the words compared here (relations,
  comparators, units, switches) are ASCII.
-/

namespace ContentIndex.Text

/-- ASCII capitals become small letters, all else stays. -/
def lower (s : String) : String :=
  s.map Char.toLower

/-- ASCII small letters become capitals, all else stays. -/
def upper (s : String) : String :=
  s.map Char.toUpper

/-- Equality up to the case of ASCII letters. -/
def sameWord (s t : String) : Bool :=
  lower s == lower t

/-- The value of a decimal digit. -/
def digit? (c : Char) : Option Nat :=
  if '0' ≤ c ∧ c ≤ '9' then some (c.toNat - 48) else none

/-- The value of a hexadecimal digit, in either case. -/
def hexDigit? (c : Char) : Option Nat :=
  if '0' ≤ c ∧ c ≤ '9' then some (c.toNat - 48)
  else if 'a' ≤ c ∧ c ≤ 'f' then some (c.toNat - 87)
  else if 'A' ≤ c ∧ c ≤ 'F' then some (c.toNat - 55)
  else none

def isDigit (c : Char) : Bool :=
  (digit? c).isSome

/-- The leading digits as values, and the characters after them. -/
def takeDigits : List Char → List Nat × List Char
  | [] => ([], [])
  | c :: r =>
    match digit? c with
    | some d => (d :: (takeDigits r).1, (takeDigits r).2)
    | none => ([], c :: r)

/-- The number that a list of decimal digits writes, most significant first. -/
def ofDigits (ds : List Nat) : Nat :=
  ds.foldl (fun n d => 10 * n + d) 0

/-- The pieces between the separators; a text without one is its own only piece. -/
def splitAt (separator : Char) : List Char → List (List Char)
  | [] => [[]]
  | c :: r =>
    if c = separator then [] :: splitAt separator r
    else
      match splitAt separator r with
      | [] => [[c]]
      | w :: ws => (c :: w) :: ws

/-- Drops `lead` from the front of a text, if it stands there. -/
def dropLead? : (lead : List Char) → List Char → Option (List Char)
  | [], cs => some cs
  | _ :: _, [] => none
  | l :: ls, c :: cs => if l = c then dropLead? ls cs else none

/-- Two decimal digits, zero first below ten. -/
def twoDigits (n : Nat) : List Char :=
  [(n / 10 % 10).digitChar, (n % 10).digitChar]

/-- A number in decimal with zeros in front up to `width` digits. -/
def padded (width n : Nat) : List Char :=
  List.replicate (width - (Nat.toDigits 10 n).length) '0' ++ Nat.toDigits 10 n

/-! ## Laws -/

theorem toList_lower (s : String) : (lower s).toList = s.toList.map Char.toLower :=
  String.toList_map

/-- The piece before the first separator. -/
theorem splitAt_append {separator : Char} {cs : List Char} (h : separator ∉ cs)
    (rest : List Char) :
    splitAt separator (cs ++ separator :: rest) = cs :: splitAt separator rest := by
  induction cs with
  | nil => simp [splitAt]
  | cons c cs ih =>
    simp only [List.mem_cons, not_or] at h
    rw [List.cons_append, splitAt, if_neg (Ne.symm h.1), ih h.2]

theorem splitAt_self {separator : Char} {cs : List Char} (h : separator ∉ cs) :
    splitAt separator cs = [cs] := by
  induction cs with
  | nil => rfl
  | cons c cs ih =>
    simp only [List.mem_cons, not_or] at h
    rw [splitAt, if_neg (Ne.symm h.1), ih h.2]

theorem takeDigits_append (cs : List Char) :
    (takeDigits cs).1.map Nat.digitChar ++ (takeDigits cs).2 = cs := by
  induction cs with
  | nil => rfl
  | cons c r ih =>
    rw [takeDigits]
    cases h : digit? c with
    | none => rfl
    | some d =>
      have hc : d.digitChar = c := by
        simp only [digit?] at h
        split at h <;> simp only [Option.some.injEq, reduceCtorEq] at h
        rename_i hr
        obtain ⟨h0, h9⟩ := hr
        have h0' : 48 ≤ c.toNat := h0
        have h9' : c.toNat ≤ 57 := h9
        apply Char.toNat_inj.mp
        rw [Nat.toNat_digitChar_of_lt_ten (by omega)]
        omega
      simpa [hc] using ih

theorem dropLead?_append (l cs : List Char) : dropLead? l (l ++ cs) = some cs := by
  induction l with
  | nil => rfl
  | cons a l ih => simp [dropLead?, ih]

theorem eq_append_of_dropLead? {l cs r : List Char} (h : dropLead? l cs = some r) :
    cs = l ++ r := by
  induction l generalizing cs with
  | nil => simpa [dropLead?] using h
  | cons a l ih =>
    cases cs with
    | nil => simp [dropLead?] at h
    | cons c cs =>
      by_cases hac : a = c
      · simp only [dropLead?, hac, if_true] at h
        rw [hac, ih h]
        rfl
      · simp [dropLead?, hac] at h

end ContentIndex.Text
