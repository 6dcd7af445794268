import ContentIndex.Json.Printer

/-
  JSON text stands on one line: the digits, points and signs of numbers are no line breaks, and a
  line break inside a string is escaped. So JSON texts can be put on lines of one text and be
  told apart again.
-/

namespace ContentIndex.Json

open ContentIndex.Number

/-- Without a line break. -/
def OneLine (cs : List Char) : Prop := '\n' ∉ cs

theorem oneLine_nil : OneLine [] := List.not_mem_nil

theorem OneLine.cons {c : Char} {cs : List Char} (hc : '\n' ≠ c) (h : OneLine cs) :
    OneLine (c :: cs) := by
  intro hm
  rcases List.mem_cons.mp hm with he | hm
  · exact hc he
  · exact h hm

theorem OneLine.append {cs ds : List Char} (h : OneLine cs) (h' : OneLine ds) :
    OneLine (cs ++ ds) := by
  intro hm
  rcases List.mem_append.mp hm with hm | hm
  · exact h hm
  · exact h' hm

/-! ## Numbers -/

theorem oneLine_natChars (n : Nat) : OneLine (natChars n) := by
  intro hm
  have := Nat.isDigit_of_mem_toDigits (b := 10) (n := n) (by decide) (by decide) hm
  exact absurd this (by decide)

theorem oneLine_intChars (i : Int) : OneLine (intChars i) := by
  unfold intChars
  split
  · exact .cons (by decide) (oneLine_natChars _)
  · exact oneLine_natChars _

theorem oneLine_replicate (n : Nat) : OneLine (List.replicate n '0') := by
  intro hm
  exact absurd (List.eq_of_mem_replicate hm) (by decide)

theorem oneLine_decimal {l : RealLayout} (hl : OneLine l.plus) (d : Decimal) :
    OneLine (l.chars d) := by
  have digits := oneLine_natChars d.digits
  unfold RealLayout.chars
  simp only
  split
  · exact (digits.append (oneLine_replicate _)).append (by unfold OneLine; decide)
  split
  · refine .append (fun hm => digits (List.mem_of_mem_take hm)) (.cons (by decide) ?_)
    exact fun hm => digits (List.mem_of_mem_drop hm)
  split
  · exact .cons (by decide) (.cons (by decide) ((oneLine_replicate _).append digits))
  · refine .append (.append ?_ (.cons (by decide) ?_)) (oneLine_natChars _)
    · cases hd : natChars d.digits with
      | nil => exact oneLine_nil
      | cons c r =>
        rw [hd] at digits
        cases r with
        | nil => exact digits
        | cons c' r =>
          have hc : '\n' ≠ c := fun he => digits (he ▸ List.mem_cons_self)
          exact .cons hc (.cons (by decide) fun hm => digits (List.mem_cons_of_mem c hm))
    · split
      · unfold OneLine
        decide
      · exact hl

theorem oneLine_number (n : Number) : OneLine n.chars := by
  cases n with
  | integer i hi => exact oneLine_intChars i
  | real x hx =>
    have body : OneLine (if x.isZero then ['0', '.', '0']
        else Number.realLayout.chars x.shortest) := by
      split
      · unfold OneLine
        decide
      · exact oneLine_decimal (by unfold OneLine; decide) _
    show OneLine (Number.realLayout.write x)
    unfold RealLayout.write
    by_cases hn : x.isNegative = true
    · simp only [hn, if_true]
      exact .cons (by decide) body
    · simp only [hn]
      exact body

/-! ## Strings -/

theorem oneLine_escapeChar (c : Char) : OneLine (escapeChar c) := by
  have hex : ∀ n < 16, '\n' ≠ n.digitChar := by decide
  unfold escapeChar
  repeat' split
  all_goals try (unfold OneLine; decide)
  · rename_i h
    have h₁ := hex (c.toNat / 16) (by omega)
    have h₂ := hex (c.toNat % 16) (by omega)
    exact .cons (by decide) (.cons (by decide) (.cons (by decide) (.cons (by decide)
      (.cons h₁ (.cons h₂ oneLine_nil)))))
  · rename_i hn _ _ _
    refine .cons ?_ oneLine_nil
    rintro rfl
    exact hn rfl

theorem oneLine_quoted (s : String) : OneLine (quoted s) := by
  refine .cons (by decide) (.append ?_ (by unfold OneLine; decide))
  intro hm
  obtain ⟨c, -, hc⟩ := List.mem_flatMap.mp hm
  exact oneLine_escapeChar c hc

/-! ## Values -/

mutual
/-- The text of a value stands on one line. -/
theorem oneLine_chars (v : Value) : OneLine v.chars := by
  cases v with
  | null => unfold OneLine; decide
  | bool b => cases b <;> (unfold OneLine; decide)
  | number n => exact oneLine_number n
  | string s => exact oneLine_quoted s
  | array vs =>
    cases vs with
    | nil => unfold OneLine; decide
    | cons v vs => exact .cons (by decide) ((oneLine_chars v).append (oneLine_itemsChars vs))
  | object ms =>
    cases ms with
    | nil => unfold OneLine; decide
    | cons m ms =>
      obtain ⟨k, v⟩ := m
      exact .cons (by decide) ((oneLine_quoted k).append
        (.cons (by decide) ((oneLine_chars v).append (oneLine_membersChars ms))))

theorem oneLine_itemsChars (vs : List Value) : OneLine (Value.itemsChars vs) := by
  cases vs with
  | nil => unfold OneLine; decide
  | cons v vs => exact .cons (by decide) ((oneLine_chars v).append (oneLine_itemsChars vs))

theorem oneLine_membersChars (ms : List (String × Value)) : OneLine (Value.membersChars ms) := by
  cases ms with
  | nil => unfold OneLine; decide
  | cons m ms =>
    obtain ⟨k, v⟩ := m
    exact .cons (by decide) ((oneLine_quoted k).append
      (.cons (by decide) ((oneLine_chars v).append (oneLine_membersChars ms))))
end

end ContentIndex.Json
