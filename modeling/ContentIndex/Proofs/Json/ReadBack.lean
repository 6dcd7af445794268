import ContentIndex.Json.Printer
import ContentIndex.Json.Tree
import ContentIndex.Progress.RunId

/-
  Written values are read back. `Value.tokens` lists the tokens of a written value; the scanner
  finds them in its text (`lexes_chars`), the machine makes of them the tree of the value
  (`foldlM_tokens`), and `ofText?_render` puts the two together. Real numbers are left out: their
  digits are scaled when they are read, and what comes back need not be the same number.
-/

namespace ContentIndex.Json

open ContentIndex.Number (natChars intChars)
open ContentIndex.Text (takeDigits ofDigits)

/-! ## Tokens -/

mutual
/-- The tokens of a written value. -/
def Value.tokens : Value → List Token
  | .null => [.null]
  | .bool b => [.bool b]
  | .number n => [.number (some n)]
  | .string s => [.string (some s)]
  | .array [] => [.openArray, .closeArray]
  | .array (v :: vs) => .openArray :: (v.tokens ++ Value.itemsTokens vs)
  | .object [] => [.openObject, .closeObject]
  | .object ((k, v) :: ms) =>
    .openObject :: .string (some k) :: .colon :: (v.tokens ++ Value.membersTokens ms)
termination_by structural v => v

/-- The tokens of the items after the first, and the closing bracket. -/
def Value.itemsTokens : List Value → List Token
  | [] => [.closeArray]
  | v :: vs => .comma :: (v.tokens ++ Value.itemsTokens vs)
termination_by structural vs => vs

/-- The tokens of the members after the first, and the closing brace. -/
def Value.membersTokens : List (String × Value) → List Token
  | [] => [.closeObject]
  | (k, v) :: ms =>
    .comma :: .string (some k) :: .colon :: (v.tokens ++ Value.membersTokens ms)
termination_by structural ms => ms
end

mutual
/-- All numbers of the value are integers. -/
def Value.Integral : Value → Prop
  | .number (.real _ _) => False
  | .array vs => Value.IntegralItems vs
  | .object ms => Value.IntegralMembers ms
  | .null | .bool _ | .number (.integer _ _) | .string _ => True
termination_by structural v => v

def Value.IntegralItems : List Value → Prop
  | [] => True
  | v :: vs => v.Integral ∧ Value.IntegralItems vs
termination_by structural vs => vs

def Value.IntegralMembers : List (String × Value) → Prop
  | [] => True
  | (_, v) :: ms => v.Integral ∧ Value.IntegralMembers ms
termination_by structural ms => ms
end

/-! ## Strings -/

theorem joinPieces_map_char (cs : List Char) : joinPieces (cs.map .char) = some cs := by
  induction cs with
  | nil => rfl
  | cons c cs ih => simp [joinPieces, ih]

/-- One written character is scanned as itself. -/
theorem scanString_escapeChar (c : Char) (r : List Char) :
    scanString (escapeChar c ++ r) = (scanString r).map fun (s, t) => (.char c :: s, t) := by
  have named : ∀ n, c.toNat = n → c = Char.ofNat n := by
    intro n h
    rw [← h, Char.ofNat_toNat]
  unfold escapeChar
  split
  · rename_i h
    subst h
    simp [scanString, simpleEscape?]
  split
  · rename_i h
    subst h
    simp [scanString, simpleEscape?]
  split
  · rename_i h
    rw [named 8 h]
    simp [scanString, simpleEscape?]
  split
  · rename_i h
    rw [named 9 h]
    simp [scanString, simpleEscape?]
  split
  · rename_i h
    rw [named 10 h]
    simp [scanString, simpleEscape?]
  split
  · rename_i h
    rw [named 12 h]
    simp [scanString, simpleEscape?]
  split
  · rename_i h
    rw [named 13 h]
    simp [scanString, simpleEscape?]
  split
  · rename_i h
    have h4 : hex4? '0' '0' (c.toNat / 16).digitChar (c.toNat % 16).digitChar = some c.toNat := by
      have h0 : Text.hexDigit? '0' = some 0 := by decide
      rw [hex4?, h0, RunId.hexDigit?_digitChar (by omega), RunId.hexDigit?_digitChar (by omega)]
      simp only [Option.some.injEq]
      omega
    have hu : Piece.ofUnit c.toNat = .char c := by
      rw [Piece.ofUnit, if_neg (by omega), Char.ofNat_toNat]
    simp [scanString, h4, hu]
  · rename_i hb _ _ _ _ _ hc
    simp [scanString, hb, hc]

theorem scanString_quoted (cs r : List Char) :
    scanString (cs.flatMap escapeChar ++ '"' :: r) = some (cs.map .char, r) := by
  induction cs with
  | nil => simp [scanString]
  | cons c cs ih =>
    rw [List.flatMap_cons, List.append_assoc, scanString_escapeChar, ih]
    rfl

theorem scanToken_quoted (s : String) (r : List Char) :
    scanToken (quoted s ++ r) = some (.string (some s), r) := by
  simp [quoted, scanToken, scanString_quoted, joinPieces_map_char]

/-! ## Integers -/

theorem accumulate_eq {s : Nat} {ds : List Nat}
    (h : ds.foldl (fun n d => 10 * n + d) s < 2 ^ 64) :
    Number.accumulate s ds = (ds.foldl (fun n d => 10 * n + d) s, []) := by
  have grows : ∀ (ds : List Nat) (s : Nat), s ≤ ds.foldl (fun n d => 10 * n + d) s := by
    intro ds
    induction ds with
    | nil => exact fun s => Nat.le_refl s
    | cons d ds ih =>
      intro s
      have := ih (10 * s + d)
      rw [List.foldl_cons]
      omega
  induction ds generalizing s with
  | nil => rfl
  | cons d ds ih =>
    have hs := grows ds (10 * s + d)
    rw [List.foldl_cons] at h ⊢
    rw [Number.accumulate, if_pos (by omega), ih h]

/-- A written natural number begins with a digit, and with zero only if it is zero. -/
theorem natChars_eq_cons (n : Nat) :
    ∃ d cs, d < 10 ∧ natChars n = d.digitChar :: cs ∧ (d = 0 → n = 0) := by
  induction n using Nat.strongRecOn with
  | ind n ih =>
    by_cases hlt : n < 10
    · exact ⟨n, [], hlt, by rw [natChars, Nat.toDigits_of_lt_base hlt], id⟩
    · obtain ⟨d, cs, hd, e, hz⟩ := ih (n / 10) (by omega)
      rw [natChars] at e
      refine ⟨d, cs ++ [(n % 10).digitChar], hd, ?_, fun h => ?_⟩
      · rw [natChars, Nat.toDigits_of_base_le (by decide) (by omega), e, List.cons_append]
      · have := hz h
        omega

/-- The digits of a written natural number are not padded with zeros. -/
theorem takeDigits_natChars (n : Nat) {rest : List Char}
    (h : ∀ c r, rest = c :: r → Text.digit? c = none) :
    ∃ ds, takeDigits (natChars n ++ rest) = (ds, rest) ∧ ofDigits ds = n ∧
      (ds = [0] ∨ ∃ d ds', ds = (d + 1) :: ds') := by
  obtain ⟨ds, e, hv, _⟩ := Number.takeDigits_natChars_append n rest h
  obtain ⟨d, cs, hd, hc, hz⟩ := natChars_eq_cons n
  refine ⟨ds, e, hv, ?_⟩
  rw [hc, List.cons_append, takeDigits, Number.digit?_digitChar hd] at e
  have hds := (Prod.mk.inj e).1
  cases d with
  | succ d => exact .inr ⟨d, _, hds.symm⟩
  | zero =>
    have hcs : cs = [] := by
      rw [hz rfl] at hc
      exact (List.cons.inj hc).2.symm
    have stop : takeDigits rest = ([], rest) := by
      cases rest with
      | nil => rfl
      | cons c r => rw [takeDigits, h c r rfl]
    rw [hcs, List.nil_append, stop] at hds
    exact .inl hds.symm

/-- What may follow a number inside a written value. -/
def Stops (rest : List Char) : Prop :=
  ∀ c r, rest = c :: r → c = ',' ∨ c = ']' ∨ c = '\x7d'

theorem stops_nil : Stops [] := by
  intro c r h
  cases h

theorem Stops.digit {rest : List Char} (h : Stops rest) (c : Char) (r : List Char)
    (e : rest = c :: r) : Text.digit? c = none := by
  rcases h c r e with rfl | rfl | rfl <;> decide

/-- What the scanner finds after the digits of a written integer. -/
theorem scanFraction_stops {rest : List Char} (h : Stops rest) :
    scanFraction rest = some (none, rest) := by
  cases rest with
  | nil => rfl
  | cons c r => rcases h c r rfl with rfl | rfl | rfl <;> rfl

theorem scanUnsigned_digits {cs rest : List Char} {ds : List Nat} (negative : Bool)
    (hds : takeDigits cs = (ds, rest)) (hlead : ds = [0] ∨ ∃ d ds', ds = (d + 1) :: ds')
    (h : Stops rest) :
    scanUnsigned negative cs = some (Number.ofDigits? negative ds none none, rest) := by
  have hc : ∀ c r, rest = c :: r → ¬ (c = 'e' ∨ c = 'E') := by
    intro c r e
    rcases h c r e with rfl | rfl | rfl <;> decide
  rw [scanUnsigned, hds]
  rcases hlead with rfl | ⟨d, ds', rfl⟩ <;> simp only [scanFraction_stops h]
  · cases rest with
    | nil => simp only
    | cons c r => simp only [if_neg (hc c r rfl)]
  · cases rest with
    | nil => simp only
    | cons c r => simp only [if_neg (hc c r rfl)]

theorem ofDigits?_integer (negative : Bool) (ds : List Nat) (h : ofDigits ds < 2 ^ 64) :
    Number.ofDigits? negative ds none none =
      if negative then
        if 0 < ofDigits ds ∧ ofDigits ds ≤ 2 ^ 63 then Number.ofInt? (-(ofDigits ds : Int))
        else Number.scaledReal? true (ofDigits ds) 0
      else Number.ofInt? (ofDigits ds) := by
  rw [Number.ofDigits?, accumulate_eq h]
  rfl

/-- A written integer is scanned as itself. -/
theorem scanNumber_intChars (i : Int) (hi : -2 ^ 63 ≤ i ∧ i < 2 ^ 64) {rest : List Char}
    (h : Stops rest) :
    scanNumber (intChars i ++ rest) = some (some (.integer i hi), rest) := by
  have ofInt : Number.ofInt? i = some (.integer i hi) := dif_pos hi
  obtain ⟨ds, hds, hv, hlead⟩ := takeDigits_natChars i.natAbs h.digit
  by_cases hneg : i < 0
  · rw [intChars, if_pos hneg, List.cons_append, scanNumber, scanUnsigned_digits true hds hlead h,
      ofDigits?_integer _ _ (by omega), if_pos rfl, if_pos (by omega), hv,
      show -(i.natAbs : Int) = i by omega, ofInt]
  · rw [intChars, if_neg hneg, scanNumber, scanUnsigned_digits false hds hlead h,
      ofDigits?_integer _ _ (by omega), if_neg (by decide), hv,
      show (i.natAbs : Int) = i by omega, ofInt]
    intro r e
    rw [e] at hds
    rcases hlead with rfl | ⟨d, ds', rfl⟩ <;> cases hds

/-- A text that begins as a written integer does is scanned as a number. -/
theorem scanToken_intChars (i : Int) (rest : List Char) :
    (∃ c r, intChars i ++ rest = c :: r ∧ isSpace c = false) ∧
      scanToken (intChars i ++ rest) =
        (scanNumber (intChars i ++ rest)).map fun (n, t) => (.number n, t) := by
  have digit : ∀ (d : Nat) (r : List Char), d < 10 → isSpace d.digitChar = false ∧
      scanToken (d.digitChar :: r) =
        (scanNumber (d.digitChar :: r)).map fun (n, t) => (.number n, t) := by
    intro d r hd
    have : d = 0 ∨ d = 1 ∨ d = 2 ∨ d = 3 ∨ d = 4 ∨ d = 5 ∨ d = 6 ∨ d = 7 ∨ d = 8 ∨ d = 9 := by
      omega
    rcases this with rfl | rfl | rfl | rfl | rfl | rfl | rfl | rfl | rfl | rfl <;>
      exact ⟨rfl, rfl⟩
  by_cases hneg : i < 0
  · rw [intChars, if_pos hneg, List.cons_append]
    exact ⟨⟨_, _, rfl, rfl⟩, rfl⟩
  · rw [intChars, if_neg hneg]
    obtain ⟨d, cs, hd, e, _⟩ := natChars_eq_cons i.natAbs
    rw [e, List.cons_append]
    exact ⟨⟨_, cs ++ rest, rfl, (digit d [] hd).1⟩, (digit d _ hd).2⟩

/-! ## The tokens of a text -/

/-- A text has these tokens, however much fuel is left beyond its length. -/
def Lexes (cs : List Char) (ts : List Token) : Prop :=
  ∀ fuel, cs.length ≤ fuel → scanTokens fuel cs = some ts

theorem lexes_nil : Lexes [] [] := by
  intro fuel _
  cases fuel <;> rfl

theorem Lexes.cons {cs rest : List Char} {t : Token} {ts : List Token}
    (hfirst : ∃ c r, cs = c :: r ∧ isSpace c = false) (ht : scanToken cs = some (t, rest))
    (hlen : rest.length < cs.length) (h : Lexes rest ts) : Lexes cs (t :: ts) := by
  obtain ⟨c, r, rfl, hc⟩ := hfirst
  intro fuel hf
  cases fuel with
  | zero => simp at hf
  | succ fuel =>
    have hrest := h fuel (by simp only [List.length_cons] at hlen hf; omega)
    rw [scanTokens, List.dropWhile_cons_of_neg (by simp [hc])]
    simp only [ht, hrest, Option.map_some]

/-- A single character that is a token. -/
theorem Lexes.mark {c : Char} {rest : List Char} {t : Token} {ts : List Token}
    (hc : isSpace c = false) (ht : scanToken (c :: rest) = some (t, rest)) (h : Lexes rest ts) :
    Lexes (c :: rest) (t :: ts) :=
  .cons ⟨c, rest, rfl, hc⟩ ht (Nat.lt_succ_self _) h

theorem Lexes.quoted {rest : List Char} {ts : List Token} (s : String) (h : Lexes rest ts) :
    Lexes (quoted s ++ rest) (.string (some s) :: ts) := by
  refine .cons ⟨'"', _, rfl, rfl⟩ (scanToken_quoted s rest) ?_ h
  simp [Json.quoted]
  omega

theorem Lexes.integer {rest : List Char} {ts : List Token} (i : Int)
    (hi : -2 ^ 63 ≤ i ∧ i < 2 ^ 64) (hs : Stops rest) (h : Lexes rest ts) :
    Lexes (intChars i ++ rest) (.number (some (.integer i hi)) :: ts) := by
  obtain ⟨hfirst, ht⟩ := scanToken_intChars i rest
  rw [scanNumber_intChars i hi hs] at ht
  obtain ⟨d, cs, _, e, _⟩ := natChars_eq_cons i.natAbs
  have nonempty : 0 < (intChars i).length := by
    unfold intChars
    split
    · exact Nat.succ_pos _
    · rw [e]
      exact Nat.succ_pos _
  refine .cons hfirst ht ?_ h
  rw [List.length_append]
  omega

theorem stops_itemsChars (vs : List Value) (rest : List Char) :
    Stops (Value.itemsChars vs ++ rest) := by
  intro c r h
  cases vs with
  | nil => exact .inr (.inl (List.cons.inj h).1.symm)
  | cons v vs => exact .inl (List.cons.inj h).1.symm

theorem stops_membersChars (ms : List (String × Value)) (rest : List Char) :
    Stops (Value.membersChars ms ++ rest) := by
  intro c r h
  cases ms with
  | nil => exact .inr (.inr (List.cons.inj h).1.symm)
  | cons m ms => exact .inl (List.cons.inj h).1.symm

mutual
/-- The text of a value has the tokens of the value. -/
theorem lexes_chars (v : Value) (hv : v.Integral) {rest : List Char} {ts : List Token}
    (hs : Stops rest) (h : Lexes rest ts) : Lexes (v.chars ++ rest) (v.tokens ++ ts) := by
  cases v with
  | null => exact .cons ⟨_, _, rfl, rfl⟩ rfl (by simp [Value.chars]; omega) h
  | bool b => cases b <;> exact .cons ⟨_, _, rfl, rfl⟩ rfl (by simp [Value.chars]; omega) h
  | string s => exact h.quoted s
  | number n =>
    cases n with
    | integer i hi => exact .integer i hi hs h
    | real x hx => exact hv.elim
  | array vs =>
    cases vs with
    | nil => exact .mark rfl rfl (.mark rfl rfl h)
    | cons v vs =>
      simp only [Value.chars, Value.tokens, List.cons_append, List.append_assoc]
      exact .mark rfl rfl
        (lexes_chars v hv.1 (stops_itemsChars vs rest) (lexes_itemsChars vs hv.2 h))
  | object ms =>
    cases ms with
    | nil => exact .mark rfl rfl (.mark rfl rfl h)
    | cons m ms =>
      obtain ⟨k, v⟩ := m
      simp only [Value.chars, Value.tokens, List.cons_append, List.append_assoc]
      exact .mark rfl rfl (.quoted k (.mark rfl rfl
        (lexes_chars v hv.1 (stops_membersChars ms rest) (lexes_membersChars ms hv.2 h))))

theorem lexes_itemsChars (vs : List Value) (hv : Value.IntegralItems vs) {rest : List Char}
    {ts : List Token} (h : Lexes rest ts) :
    Lexes (Value.itemsChars vs ++ rest) (Value.itemsTokens vs ++ ts) := by
  cases vs with
  | nil => exact .mark rfl rfl h
  | cons v vs =>
    simp only [Value.itemsChars, Value.itemsTokens, List.cons_append, List.append_assoc]
    exact .mark rfl rfl
      (lexes_chars v hv.1 (stops_itemsChars vs rest) (lexes_itemsChars vs hv.2 h))

theorem lexes_membersChars (ms : List (String × Value)) (hv : Value.IntegralMembers ms)
    {rest : List Char} {ts : List Token} (h : Lexes rest ts) :
    Lexes (Value.membersChars ms ++ rest) (Value.membersTokens ms ++ ts) := by
  cases ms with
  | nil => exact .mark rfl rfl h
  | cons m ms =>
    obtain ⟨k, v⟩ := m
    simp only [Value.membersChars, Value.membersTokens, List.cons_append, List.append_assoc]
    exact .mark rfl rfl (.quoted k (.mark rfl rfl
      (lexes_chars v hv.1 (stops_membersChars ms rest) (lexes_membersChars ms hv.2 h))))
end

/-! ## The tree of the tokens -/

namespace Tree

/-- Where an array may begin with a value, the value is read as the first item. -/
theorem foldlM_firstItem (v : Value) (st : List Frame) (ts : List Token) :
    (v.tokens ++ ts).foldlM Machine.step ⟨.firstItem, st⟩ =
      (v.tokens ++ ts).foldlM Machine.step ⟨.value, .array [] :: st⟩ := by
  cases v with
  | array vs => cases vs <;> rfl
  | object ms => cases ms <;> rfl
  | _ => rfl

mutual
/-- The machine reads the tokens of a value as its tree. -/
theorem foldlM_tokens (v : Value) (st : List Frame) (ts : List Token) :
    (v.tokens ++ ts).foldlM Machine.step ⟨.value, st⟩ =
      ts.foldlM Machine.step ⟨.done (ofValue v), st⟩ := by
  cases v with
  | null | bool b | number n | string s => rfl
  | array vs =>
    cases vs with
    | nil => rfl
    | cons v vs =>
      simp only [Value.tokens, List.cons_append, List.append_assoc, List.foldlM_cons]
      show (v.tokens ++ (Value.itemsTokens vs ++ ts)).foldlM Machine.step ⟨.firstItem, st⟩ = _
      rw [foldlM_firstItem, foldlM_tokens v, foldlM_itemsTokens vs]
      rfl
  | object ms =>
    cases ms with
    | nil => rfl
    | cons m ms =>
      obtain ⟨k, v⟩ := m
      simp only [Value.tokens, List.cons_append, List.append_assoc, List.foldlM_cons]
      show (v.tokens ++ (Value.membersTokens ms ++ ts)).foldlM Machine.step
        ⟨.value, .object [] (some k) :: st⟩ = _
      rw [foldlM_tokens v, foldlM_membersTokens ms]
      rfl

theorem foldlM_itemsTokens (vs : List Value) (t : Tree) (acc : List Tree) (st : List Frame)
    (ts : List Token) :
    (Value.itemsTokens vs ++ ts).foldlM Machine.step ⟨.done t, .array acc :: st⟩ =
      ts.foldlM Machine.step ⟨.done (.array (acc.reverse ++ t :: ofValues vs)), st⟩ := by
  cases vs with
  | nil =>
    simp only [Value.itemsTokens, List.singleton_append, List.foldlM_cons]
    show ts.foldlM Machine.step ⟨.done (.array (t :: acc).reverse), st⟩ = _
    rw [List.reverse_cons]
    rfl
  | cons v vs =>
    simp only [Value.itemsTokens, List.cons_append, List.append_assoc, List.foldlM_cons]
    show (v.tokens ++ (Value.itemsTokens vs ++ ts)).foldlM Machine.step
      ⟨.value, .array (t :: acc) :: st⟩ = _
    rw [foldlM_tokens v, foldlM_itemsTokens vs, List.reverse_cons, List.append_assoc]
    rfl

theorem foldlM_membersTokens (ms : List (String × Value)) (k : Option String) (t : Tree)
    (acc : List (Option String × Tree)) (st : List Frame) (ts : List Token) :
    (Value.membersTokens ms ++ ts).foldlM Machine.step ⟨.done t, .object acc k :: st⟩ =
      ts.foldlM Machine.step ⟨.done (.object (acc.reverse ++ (k, t) :: ofMembers ms)), st⟩ := by
  cases ms with
  | nil =>
    simp only [Value.membersTokens, List.singleton_append, List.foldlM_cons]
    show ts.foldlM Machine.step ⟨.done (.object ((k, t) :: acc).reverse), st⟩ = _
    rw [List.reverse_cons]
    rfl
  | cons m ms =>
    obtain ⟨l, v⟩ := m
    simp only [Value.membersTokens, List.cons_append, List.append_assoc, List.foldlM_cons]
    show (v.tokens ++ (Value.membersTokens ms ++ ts)).foldlM Machine.step
      ⟨.value, .object ((k, t) :: acc) (some l) :: st⟩ = _
    rw [foldlM_tokens v, foldlM_membersTokens ms, List.reverse_cons, List.append_assoc]
    rfl
end

/-- The text of a value whose numbers are integers is read back as its tree. -/
theorem ofText?_render (v : Value) (hv : v.Integral) : ofText? v.render = some (ofValue v) := by
  have hl := lexes_chars v hv stops_nil lexes_nil v.chars.length (by simp)
  have hm := foldlM_tokens v [] []
  rw [List.append_nil, List.append_nil] at hl
  rw [List.append_nil] at hm
  rw [ofText?, tokens?, Value.render, String.toList_ofList, hl, Option.bind_some, ofTokens?, hm]
  rfl

end Tree
end ContentIndex.Json
