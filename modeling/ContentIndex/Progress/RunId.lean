import ContentIndex.Json.Record
import ContentIndex.Text.Ascii

/-
  Ids of rebuilds: numbers of 128 bits. An id is written as 32 hexadecimal digits in five groups
  with hyphens in between. It is also read without the hyphens, between braces or after
  `urn:uuid:`, with letters in either case. `read?_text` says that a written id reads back.
-/

namespace ContentIndex

open Json (Reader Value)

/-- The id of one rebuild. -/
structure RunId where
  value : Nat
  value_lt : value < 2 ^ 128
deriving DecidableEq, Repr

namespace RunId

/-- A number as so many hexadecimal digits; digits in front of them are left out. -/
def hexDigits : (width : Nat) → Nat → List Char
  | 0, _ => []
  | w + 1, n => hexDigits w (n / 16) ++ [(n % 16).digitChar]

/-- The id that a list of 32 hexadecimal digits writes. -/
def ofHex? (cs : List Char) : Option RunId := do
  let n := (← cs.mapM Text.hexDigit?).foldl (fun n d => 16 * n + d) 0
  if h : cs.length = 32 ∧ n < 2 ^ 128 then some ⟨n, h.2⟩ else none

/-- The lengths of the groups. -/
def groups : List Nat := [8, 4, 4, 4, 12]

/-- Cuts digits into groups with hyphens in between. -/
def hyphenated (cs : List Char) : List Char :=
  cs.take 8 ++ '-' :: ((cs.drop 8).take 4 ++ '-' :: ((cs.drop 12).take 4 ++ '-' ::
    ((cs.drop 16).take 4 ++ '-' :: cs.drop 20)))

def ofHyphenated? (cs : List Char) : Option RunId :=
  let parts := Text.splitAt '-' cs
  if parts.map List.length = groups then ofHex? parts.flatten else none

/-- The id that a text writes, in one of the four forms. -/
def read? (s : String) : Option RunId :=
  let cs := s.toList
  if cs.length = 32 then ofHex? cs
  else
    match Text.dropLead? "urn:uuid:".toList (cs.map Char.toLower), cs with
    | some r, _ => ofHyphenated? r
    | none, '\x7b' :: r => if r.getLast? = some '\x7d' then ofHyphenated? r.dropLast else none
    | none, _ => ofHyphenated? cs

def chars (r : RunId) : List Char :=
  hyphenated (hexDigits 32 r.value)

def text (r : RunId) : String :=
  String.ofList r.chars

def toJson (r : RunId) : Value :=
  .string r.text

def read : Reader RunId := fun t => do
  Reader.ofOption (read? (← Reader.string t))

/-! ## Laws -/

theorem hexDigit?_digitChar {d : Nat} (h : d < 16) : Text.hexDigit? d.digitChar = some d := by
  have main : ∀ d : Fin 16, Text.hexDigit? d.val.digitChar = some d.val := by decide
  exact main ⟨d, h⟩

theorem digitChar_ne_hyphen {d : Nat} (h : d < 16) : d.digitChar ≠ '-' := by
  have main : ∀ d : Fin 16, d.val.digitChar ≠ '-' := by decide
  exact main ⟨d, h⟩

@[simp] theorem length_hexDigits (w n : Nat) : (hexDigits w n).length = w := by
  induction w generalizing n with
  | zero => rfl
  | succ w ih => simp [hexDigits, ih]

theorem mapM_hexDigits (w n : Nat) :
    ∃ ds, (hexDigits w n).mapM Text.hexDigit? = some ds ∧
      ds.foldl (fun n d => 16 * n + d) 0 = n % 16 ^ w := by
  induction w generalizing n with
  | zero => exact ⟨[], by simp [hexDigits], by simp [Nat.mod_one]⟩
  | succ w ih =>
    obtain ⟨ds, h, hv⟩ := ih (n / 16)
    refine ⟨ds ++ [n % 16], ?_, ?_⟩
    · have hd : Text.hexDigit? (n % 16).digitChar = some (n % 16) :=
        hexDigit?_digitChar (Nat.mod_lt _ (by decide))
      simp [hexDigits, List.mapM_append, h, hd]
    · rw [List.foldl_append, hv, Nat.pow_succ']
      simp only [List.foldl_cons, List.foldl_nil]
      rw [Nat.mod_mul]
      omega

theorem hyphen_not_mem_hexDigits (w n : Nat) : '-' ∉ hexDigits w n := by
  induction w generalizing n with
  | zero => simp [hexDigits]
  | succ w ih =>
    simp only [hexDigits, List.mem_append, List.mem_singleton, not_or]
    exact ⟨ih _, (digitChar_ne_hyphen (Nat.mod_lt _ (by decide))).symm⟩

theorem ofHex?_hexDigits (r : RunId) : ofHex? (hexDigits 32 r.value) = some r := by
  obtain ⟨ds, h, hv⟩ := mapM_hexDigits 32 r.value
  rw [Nat.mod_eq_of_lt (show r.value < 16 ^ 32 from r.value_lt)] at hv
  have valid : (hexDigits 32 r.value).length = 32 ∧
      ds.foldl (fun n d => 16 * n + d) 0 < 2 ^ 128 :=
    ⟨length_hexDigits 32 r.value, hv ▸ r.value_lt⟩
  simp only [ofHex?, h, Option.bind_eq_bind, Option.bind_some]
  rw [dif_pos valid]
  simp only [hv]

theorem splitAt_hyphenated {cs : List Char} (h : '-' ∉ cs) :
    Text.splitAt '-' (hyphenated cs)
      = [cs.take 8, (cs.drop 8).take 4, (cs.drop 12).take 4, (cs.drop 16).take 4, cs.drop 20] := by
  have hd : ∀ n, '-' ∉ cs.drop n := fun n hm => h (List.mem_of_mem_drop hm)
  have ht : ∀ n m, '-' ∉ (cs.drop n).take m := fun n m hm => hd n (List.mem_of_mem_take hm)
  rw [hyphenated, Text.splitAt_append (fun hm => h (List.mem_of_mem_take hm)),
    Text.splitAt_append (ht _ _), Text.splitAt_append (ht _ _), Text.splitAt_append (ht _ _),
    Text.splitAt_self (hd _)]

theorem flatten_groups (cs : List Char) :
    [cs.take 8, (cs.drop 8).take 4, (cs.drop 12).take 4, (cs.drop 16).take 4, cs.drop 20].flatten
      = cs := by
  have step : ∀ n m, (cs.drop n).take m ++ cs.drop (n + m) = cs.drop n := by
    intro n m
    rw [← List.drop_drop, List.take_append_drop]
  simp only [List.flatten_cons, List.flatten_nil, List.append_nil]
  rw [step 16 4, step 12 4, step 8 4, List.take_append_drop]

theorem ofHyphenated?_chars (r : RunId) : ofHyphenated? r.chars = some r := by
  have hl := length_hexDigits 32 r.value
  simp only [ofHyphenated?, chars, splitAt_hyphenated (hyphen_not_mem_hexDigits _ _)]
  rw [if_pos, flatten_groups, ofHex?_hexDigits]
  simp [groups, hl]

theorem mem_hexDigits {w n : Nat} {c : Char} (h : c ∈ hexDigits w n) :
    ∃ d : Fin 16, c = d.val.digitChar := by
  induction w generalizing n with
  | zero => simp [hexDigits] at h
  | succ w ih =>
    simp only [hexDigits, List.mem_append, List.mem_singleton] at h
    rcases h with h | h
    · exact ih h
    · exact ⟨⟨n % 16, Nat.mod_lt _ (by decide)⟩, h⟩

/-- A written id begins with a digit. -/
theorem chars_eq_cons (r : RunId) :
    ∃ (d : Fin 16) (cs : List Char), r.chars = d.val.digitChar :: cs := by
  have hl := length_hexDigits 32 r.value
  cases h : hexDigits 32 r.value with
  | nil => simp [h] at hl
  | cons c cs =>
    obtain ⟨d, rfl⟩ := mem_hexDigits (h ▸ List.mem_cons_self : c ∈ hexDigits 32 r.value)
    refine ⟨d, cs.take 7 ++ (hyphenated (d.val.digitChar :: cs)).drop 8, ?_⟩
    have e : (hyphenated (d.val.digitChar :: cs)).take 8 = d.val.digitChar :: cs.take 7 := by
      have : 8 ≤ (d.val.digitChar :: cs).length := by rw [← h, hl]; decide
      rw [hyphenated, List.take_append_of_le_length (by simp at this ⊢; omega)]
      simp [List.take_take]
    rw [chars, h, ← List.cons_append, ← e, List.take_append_drop]

/-- A written id reads back as itself. -/
theorem read?_text (r : RunId) : read? r.text = some r := by
  have hl := length_hexDigits 32 r.value
  have hn : r.chars.length ≠ 32 := by
    simp [chars, hyphenated, hl]
  have first : ∀ d : Fin 16, d.val.digitChar.toLower ≠ 'u' ∧ d.val.digitChar ≠ '\x7b' := by decide
  obtain ⟨d, cs, e⟩ := r.chars_eq_cons
  have hu : Text.dropLead? "urn:uuid:".toList (r.chars.map Char.toLower) = none := by
    have : "urn:uuid:".toList = 'u' :: "rn:uuid:".toList := by decide
    rw [this, e, List.map_cons, Text.dropLead?, if_neg (Ne.symm (first d).1)]
  have hb : ∀ s, r.chars ≠ '\x7b' :: s := by
    intro s h
    rw [e] at h
    exact (first d).2 (List.cons.inj h).1
  simp only [read?, text, String.toList_ofList, if_neg hn, hu]
  exact ofHyphenated?_chars r

end RunId
end ContentIndex
