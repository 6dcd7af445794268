/-
  Blank characters of Unicode text, and the two operations that depend on them: trimming both ends
  and splitting into words. `blanks` is the property White_Space, 25 code points; nothing here
  depends on a locale. The lemmas say that a trimmed text neither starts nor ends with a blank,
  that trimming again changes nothing at the front, and where words begin and end.
-/

namespace ContentIndex.Text

/-- The code points with the property White_Space, in ascending order. -/
def blanks : List Nat :=
  [0x09, 0x0A, 0x0B, 0x0C, 0x0D, 0x20, 0x85, 0xA0, 0x1680, 0x2000, 0x2001, 0x2002, 0x2003, 0x2004,
    0x2005, 0x2006, 0x2007, 0x2008, 0x2009, 0x200A, 0x2028, 0x2029, 0x202F, 0x205F, 0x3000]

def isBlank (c : Char) : Bool :=
  blanks.contains c.toNat

/-- The characters after the leading blanks. -/
def trimStart (cs : List Char) : List Char :=
  cs.dropWhile isBlank

/-- The characters before the trailing ones that satisfy `p`. -/
def trimEndWhile (p : Char → Bool) (cs : List Char) : List Char :=
  (cs.reverse.dropWhile p).reverse

/-- The characters between the leading and the trailing blanks. -/
def trimChars (cs : List Char) : List Char :=
  trimEndWhile isBlank (trimStart cs)

/-- A text without its leading and trailing blanks. -/
def trim (s : String) : String :=
  String.ofList (trimChars s.toList)

/-- Adds one character in front of a list of words: a blank starts a new word. -/
private def consWord (c : Char) : List (List Char) → List (List Char)
  | [] => if isBlank c then [[]] else [[c]]
  | w :: ws => if isBlank c then [] :: w :: ws else (c :: w) :: ws

/-- The maximal runs of characters that are not blank, in order. -/
def wordChars (cs : List Char) : List (List Char) :=
  (cs.foldr consWord []).filter (! ·.isEmpty)

/-- The words of a text. -/
def words (s : String) : List String :=
  (wordChars s.toList).map String.ofList

/-! ## Laws -/

theorem isBlank_of_isWhitespace {c : Char} (h : c.isWhitespace = true) : isBlank c = true := by
  simp only [Char.isWhitespace, Bool.or_eq_true, decide_eq_true_eq] at h
  rcases h with ((rfl | rfl) | rfl) | rfl <;> decide

theorem head?_dropWhile_not {α : Type} (p : α → Bool) (l : List α) (a : α)
    (h : (l.dropWhile p).head? = some a) : p a = false := by
  induction l with
  | nil => simp at h
  | cons b l ih =>
    by_cases hb : p b = true
    · rw [List.dropWhile_cons_of_pos hb] at h
      exact ih h
    · rw [List.dropWhile_cons_of_neg hb] at h
      simp only [List.head?_cons, Option.some.injEq] at h
      exact h ▸ Bool.eq_false_iff.mpr hb

/-- Blanks in front of a word belong to none. -/
theorem wordChars_blanks_append {gap : List Char} (h : ∀ c ∈ gap, isBlank c = true)
    (cs : List Char) : wordChars (gap ++ cs) = wordChars cs := by
  induction gap with
  | nil => rfl
  | cons c gap ih =>
    rw [List.forall_mem_cons] at h
    rw [← ih h.2, wordChars, wordChars, List.cons_append, List.foldr_cons]
    cases (gap ++ cs).foldr consWord [] <;> simp [consWord, h.1]

/-- A word ends where the text does or where a blank follows. -/
theorem wordChars_append {w r : List Char} (hne : w ≠ []) (h : ∀ c ∈ w, isBlank c = false)
    (stop : ∀ c ∈ r.head?, isBlank c = true) : wordChars (w ++ r) = w :: wordChars r := by
  have begun (ws : List (List Char)) : w.foldr consWord ([] :: ws) = w :: ws := by
    clear hne
    induction w with
    | nil => rfl
    | cons c w ih =>
      rw [List.forall_mem_cons] at h
      rw [List.foldr_cons, ih h.2, consWord, if_neg (by simp [h.1])]
  have alone : w.foldr consWord [] = [w] := by
    clear begun
    induction w with
    | nil => exact absurd rfl hne
    | cons c w ih =>
      rw [List.forall_mem_cons] at h
      cases w with
      | nil => simp [consWord, h.1]
      | cons d w => rw [List.foldr_cons, ih (by simp) h.2, consWord, if_neg (by simp [h.1])]
  rw [wordChars, wordChars, List.foldr_append]
  cases r with
  | nil =>
    rw [List.foldr_nil, alone]
    simp [hne]
  | cons b r =>
    have hb : isBlank b = true := stop b rfl
    rw [List.foldr_cons]
    cases r.foldr consWord [] with
    | nil => simp [consWord, hb, begun, hne]
    | cons v ws => simp [consWord, hb, begun, hne]

theorem trimStart_trimStart (cs : List Char) : trimStart (trimStart cs) = trimStart cs := by
  cases h : trimStart cs with
  | nil => rfl
  | cons c r =>
    have hc : isBlank c = false := head?_dropWhile_not isBlank cs c (by
      simp only [trimStart] at h
      rw [h]
      rfl)
    rw [trimStart, List.dropWhile_cons_of_neg (by simp [hc])]

/-- The last character of a trimmed text is no blank. -/
theorem getLast?_trimChars_not_blank (cs : List Char) (c : Char)
    (h : (trimChars cs).getLast? = some c) : isBlank c = false := by
  rw [trimChars, trimEndWhile, List.getLast?_reverse] at h
  exact head?_dropWhile_not _ _ _ h

end ContentIndex.Text
